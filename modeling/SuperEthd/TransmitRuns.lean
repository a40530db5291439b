import SuperEthd.ReaderProgress
import SuperEthd.TurnProgress

/-! # Runs of the transmitting half

The results about whole runs of `TransmitSide`: no buffer is lost, the threads of a node do what its
encoder thread does alone, and a node is sent all that was for it, in order. -/
namespace SuperEthd
open PacketHeaderOptionFormatType PacketEncoder

variable {H : Type} {B : Nat}

/-- The frames in the buffers, without those that are too large. -/
theorem EncoderThread.acceptedOf_eq (T : Tunnel H) (buffers : List (PacketBuffer T.B)) :
    EncoderThread.acceptedOf T buffers = (buffers.map PacketBuffer.data).filter (·.length ≤ T.l2mtu) := by
  induction buffers with
  | nil => rfl
  | cons b buffers ih =>
    rw [acceptedOf] at ih
    rw [acceptedOf, List.flatMap_cons, ih, Op.accepted, List.map_cons, ← b.data_length]
    by_cases h : b.data.length ≤ T.l2mtu
    · rw [if_pos h, List.filter_cons_of_pos (by simpa using h)]
      rfl
    · rw [if_neg h, List.filter_cons_of_neg (by simpa using h)]
      rfl

namespace SenderThread
variable {T : Tunnel H} {arrived : List (PacketBuffer T.B)} {pool : BufferPool (PacketBuffer T.B) T.B}
  {e : PacketEncoder H T.B} {timeout : Nat} {point : EncoderPoint T.B} {wait : Option (EncoderWait T.B)}

/-- The frames that the encoder of the thread accepted. -/
def accepted : SenderThread H B → List (List UInt8)
  | .running e _ _ _ => e.accepted
  | _ => []

/-- The frames of its round that the thread is still to encode. -/
def batch : SenderThread H B → List (PacketBuffer B)
  | .running _ _ point _ => point.buffers
  | _ => []

/-- **In the call that comes next, or through with it**, the encoder thread alone would be where its call
has pushed what was pushed so far. -/
theorem Took.exists_thread (hlib : Bounded T) (h : (running e timeout point wait).Took T arrived pool) :
    ∃ made encoder labels thread, Starts T.libs T.packet_format 1 made encoder ∧
      StepPath EncoderThread.Step (EncoderThread.start encoder : EncoderThread T) labels thread ∧
      labels.flatten = arrived ∧ thread.encoder_pool = pool ∧
      e.tx_buffer_pool.pool <+: thread.encoder.tx_buffer_pool.pool ∧ thread.encoder.accepted = e.accepted ∧
      thread.point.buffers = point.buffers ∧
      (wait = none → thread.encoder = e ∧ thread.timeout = timeout ∧ thread.point = point) := by
  obtain ⟨made, encoder, labels, thread, hstarts, hpath, hlabels, rfl, hmirrors⟩ := h
  cases wait with
  | none =>
    obtain ⟨rfl, rfl, rfl⟩ := hmirrors
    exact ⟨made, encoder, labels, thread, hstarts, hpath, hlabels, rfl, List.prefix_rfl, rfl, rfl,
      fun _ => ⟨rfl, rfl, rfl⟩⟩
  | some w =>
    obtain ⟨rfl, op, hat, hcall⟩ := hmirrors
    obtain ⟨pool, e', hcalls, hprefix, haccepted⟩ :=
      exists_calls_of_inCall (EncoderThread.keeps_of_path hlib hstarts hpath).idle hlib hcall
    have hbefore : EncoderThread.Step thread [] _ := .available ⟨pool⟩
    generalize hp : thread.point = before at hat
    cases hat with
    | flush =>
      refine ⟨made, encoder, labels ++ [[], []], _, hstarts,
        hpath.append (.cons hbefore (.single (.flush hp hcalls))), ?_, rfl, hprefix, haccepted, rfl, ?_⟩
      · rw [List.flatten_append, hlabels]
        exact List.append_nil _
      · intro heq
        cases heq
    | encode buffer buffers =>
      refine ⟨made, encoder, labels ++ [[], []], _, hstarts,
        hpath.append (.cons hbefore (.single (.encode hp hcalls))), ?_, rfl, hprefix, haccepted, rfl, ?_⟩
      · rw [List.flatten_append, hlabels]
        exact List.append_nil _
      · intro heq
        cases heq

/-- **The frames that arrived** were accepted, but for those that are too large and those that are still to
be encoded. -/
theorem Took.accepted (hlib : Bounded T) {sender : SenderThread H T.B} (h : sender.Took T arrived pool) :
    (arrived.map PacketBuffer.data).filter (·.length ≤ T.l2mtu) = sender.accepted ++
      ((sender.batch ++ pool.pool).map PacketBuffer.data).filter (·.length ≤ T.l2mtu) := by
  rw [← EncoderThread.acceptedOf_eq, ← EncoderThread.acceptedOf_eq]
  cases sender with
  | starting =>
    obtain rfl : arrived = pool.pool := h
    rfl
  | constructing =>
    obtain rfl : arrived = pool.pool := h
    rfl
  | running e timeout point wait =>
    obtain ⟨made, encoder, labels, thread, hstarts, hpath, rfl, rfl, -, haccepted, hbuffers, -⟩ := h.exists_thread hlib
    obtain ⟨taken, harrived, hframes⟩ := (EncoderThread.keeps_of_path hlib hstarts hpath).frames
    rw [haccepted, hbuffers] at hframes
    rw [harrived, EncoderThread.acceptedOf, EncoderThread.acceptedOf, List.flatMap_append, List.flatMap_append,
      ← List.append_assoc]
    exact congrArg (· ++ _) hframes.symm

end SenderThread

namespace TransmitSide
variable {T : Tunnel H} {addr : In6Addr → SockaddrStorage} {expire_time : Int} {remote_nodes : List In6Addr}
  {available : List (PacketBuffer T.B)} {s s' : TransmitSide H T.B} {event : TransmitEvent T.B}
  {events : List (TransmitEvent T.B)}

/-- The frames on their way to the encoder of the node. -/
def coming (s : TransmitSide H B) (n : In6Addr) : List (List UInt8) :=
  ((s.encoder n).batch ++ (s.switch.encoder_pool n).pool).map PacketBuffer.data ++ s.pendingFor n

/-- Nothing is on its way to the node, whose thread waits for ever. -/
structure Quiet (s : TransmitSide H B) (n : In6Addr) : Prop where
  encoder : ∃ e, s.encoder n = .running e 0 .waiting none
  coming : s.coming n = []
  buffers : (s.writer n).buffers = []
  socket_write_pool : (s.writer n).socket_write_pool.pool = []

/-- **The threads of the node do what its encoder thread does alone**, one call after the other: in some
run of that thread the frames that arrive are those for the node, and it pushes what the encoder pushed
here, and the rest of a call that waits. -/
structure Refines (T : Tunnel H) (n : In6Addr) (events : List (TransmitEvent T.B)) (s : TransmitSide H T.B)
    (thread : EncoderThread T) : Prop where
  run : ∃ made encoder labels, Starts T.libs T.packet_format 1 made encoder ∧
    StepPath EncoderThread.Step (EncoderThread.start encoder) labels thread ∧
    routedTo n events = labels.flatten.map PacketBuffer.data ++ s.pendingFor n
  encoder_pool : thread.encoder_pool = s.switch.encoder_pool n
  sent : sentTo n events ++ (s.writer n).buffers ++ (s.writer n).socket_write_pool.pool <+:
    thread.encoder.tx_buffer_pool.pool
  settled : ∀ e timeout point, s.encoder n = .running e timeout point none →
    thread.encoder = e ∧ thread.timeout = timeout ∧ thread.point = point

/-- **In order, and nothing is lost**: what was sent to the node, with what its socket writer has, is what
its encoder pushed; the frames for it that are not too large, but for those that are on their way, are
those that its encoder accepted; and when the node is quiet, they are all segmented in what was sent. -/
structure InOrder (T : Tunnel H) (n : In6Addr) (events : List (TransmitEvent T.B)) (s : TransmitSide H T.B) :
    Prop where
  sent : sentTo n events ++ (s.writer n).buffers ++ (s.writer n).socket_write_pool.pool = (s.encoder n).datagrams
  accepted : (routedTo n events).filter (·.length ≤ T.l2mtu) =
    (s.encoder n).accepted ++ (s.coming n).filter (·.length ≤ T.l2mtu)
  quiet : s.Quiet n → ∃ e ds segs, sentTo n events = e.tx_buffer_pool.pool ∧
    SegmentsFrames T 1 ((routedTo n events).filter (·.length ≤ T.l2mtu)) e ds [] segs

namespace Through
variable {n : In6Addr}

/-- What went through the threads of a node says all this. -/
theorem inOrder (hlib : Bounded T) (h : Through T n events s) : InOrder T n events s := by
  obtain ⟨arrived, hrouted, htook⟩ := h.arrived
  have haccepted : (routedTo n events).filter (·.length ≤ T.l2mtu) =
      (s.encoder n).accepted ++ (s.coming n).filter (·.length ≤ T.l2mtu) := by
    rw [hrouted, List.filter_append, htook.accepted hlib, coming, List.filter_append, List.append_assoc]
  refine ⟨h.pushed.symm, haccepted, fun hquiet => ?_⟩
  obtain ⟨e, hthread⟩ := hquiet.encoder
  have hpushed := h.pushed
  rw [hquiet.buffers, hquiet.socket_write_pool, List.append_nil, List.append_nil, hthread] at hpushed
  rw [hthread, hquiet.coming, List.filter_nil, List.append_nil] at haccepted
  rw [hthread] at htook
  obtain ⟨made, encoder, labels, thread, hstarts, hpath, -, -, -, -, -, hsettled⟩ := htook.exists_thread hlib
  obtain ⟨rfl, htimeout, hpoint⟩ := hsettled rfl
  -- the thread waits for ever, so its encoder is drained
  have hkeeps := EncoderThread.keeps_of_path hlib hstarts hpath
  obtain ⟨⟨tx, htx, h8⟩, -⟩ := hkeeps.drained ⟨Or.inr hpoint, htimeout⟩
  obtain ⟨history, ⟨ds, pending, c0, hem, hfs⟩, -⟩ := hkeeps.idle.stream
  obtain ⟨segs, hsegs⟩ := hem.segments
  obtain rfl := hem.pending_eq_nil htx h8
  rw [hfs] at hsegs
  rw [haccepted]
  exact ⟨thread.encoder, ds, segs, hpushed.symm, hsegs⟩

end Through

/-! ## The socket writer -/

/-- These buffers are given back. -/
def free (s : TransmitSide H B) (buffers : List (PacketBuffer B)) : TransmitSide H B :=
  { s with switch := { s.switch with
    available_rx_buffer_pool := ⟨s.switch.available_rx_buffer_pool.pool ++ buffers⟩ } }

section Writer
variable {s : TransmitSide H B} {n : In6Addr} {writer writer' : SocketWriter B}

@[simp] theorem write_self : (s.write n writer).writer n = writer := Function.update_self ..

@[simp] theorem write_write : (s.write n writer).write n writer' = s.write n writer' := by
  simp only [write, Function.update_idem]

theorem giveBack_write : (s.write n writer).giveBack n =
    (s.free writer.sent).write n { writer with sent := [] } := by
  simp only [giveBack, write, free, Function.update_self, Function.update_idem]

theorem settle_pushed {thread : SenderThread H B} {pool : BufferPool (PacketBuffer B) B}
    {datagrams : List (PacketBuffer B)} : ((s.settle n thread pool datagrams).writer n).socket_write_pool.pool =
      (s.writer n).socket_write_pool.pool ++ datagrams := by
  show (Function.update s.writer n _ n).socket_write_pool.pool = _
  rw [Function.update_self]

theorem free_free (buffers buffers' : List (PacketBuffer B)) :
    (s.free buffers).free buffers' = s.free (buffers ++ buffers') := by
  simp only [free, List.append_assoc]

end Writer

variable (addr expire_time) in
/-- The socket writer of the node sends what it has. -/
theorem exists_sentAll (s : TransmitSide H T.B) (n : In6Addr) (writer : SocketWriter T.B) :
    ∃ events, StepPath (Step T addr expire_time) (s.write n writer) events
        (s.write n ⟨writer.socket_write_pool, [], writer.sent ++ writer.buffers⟩) ∧ routedTo n events = [] := by
  obtain ⟨pool, buffers, sent⟩ := writer
  induction buffers generalizing sent with
  | nil =>
    rw [List.append_nil]
    exact ⟨[], .nil _, rfl⟩
  | cons datagram rest ih =>
    have hsend : Step T addr expire_time (s.write n ⟨pool, datagram :: rest, sent⟩) (.sent n datagram) _ :=
      .send (by rw [write_self])
    rw [write_self, write_write] at hsend
    obtain ⟨events, hpath, hnone⟩ := ih (sent ++ [datagram])
    rw [List.append_assoc] at hpath
    exact ⟨_, .cons hsend hpath, hnone⟩

variable (addr expire_time) in
/-- A round of the socket writer, to its end. -/
theorem exists_round (s : TransmitSide H T.B) (n : In6Addr) (writer : SocketWriter T.B) :
    ∃ events, StepPath (Step T addr expire_time) (s.write n writer) events
        ((s.free (writer.sent ++ writer.buffers)).write n ⟨writer.socket_write_pool, [], []⟩) ∧
      routedTo n events = [] := by
  obtain ⟨events, hsent, hnone⟩ := exists_sentAll addr expire_time s n writer
  let writer' : SocketWriter T.B := ⟨writer.socket_write_pool, [], writer.sent ++ writer.buffers⟩
  have hback : Step T addr expire_time (s.write n writer') .silent ((s.write n writer').giveBack n) :=
    .giveBack (by rw [write_self])
  rw [giveBack_write] at hback
  refine ⟨_, hsent.concat hback, ?_⟩
  rw [routedTo_append, hnone]
  rfl

variable (addr expire_time) in
/-- **The socket writer of the node sends what was pushed**, and gives it all back. -/
theorem exists_drained (s : TransmitSide H T.B) (n : In6Addr) :
    ∃ events given, StepPath (Step T addr expire_time) s events ((s.free given).write n ⟨⟨[]⟩, [], []⟩) ∧
      routedTo n events = [] ∧ given = (s.writer n).sent ++ (s.writer n).buffers ++ (s.writer n).socket_write_pool.pool := by
  obtain ⟨events, hpath, hnone⟩ := exists_round addr expire_time s n (s.writer n)
  have hsame : s.write n (s.writer n) = s := by
    rw [write, Function.update_eq_self]
  rw [hsame] at hpath
  let s1 := (s.free ((s.writer n).sent ++ (s.writer n).buffers)).write n ⟨(s.writer n).socket_write_pool, [], []⟩
  have hwait : Step T addr expire_time s1 .silent (s1.write n ⟨⟨[]⟩, (s1.writer n).socket_write_pool.pool, []⟩) :=
    .writerWait (by rw [write_self]) (by rw [write_self])
  rw [write_self, write_write] at hwait
  obtain ⟨events', hpath', hnone'⟩ := exists_round addr expire_time
    (s.free ((s.writer n).sent ++ (s.writer n).buffers)) n ⟨⟨[]⟩, (s.writer n).socket_write_pool.pool, []⟩
  rw [free_free] at hpath'
  refine ⟨_, _, hpath.append (.cons hwait hpath'), ?_, rfl⟩
  rw [routedTo_append, hnone]
  exact hnone'

/-! ## A node that becomes quiet -/

namespace Through
variable {n : In6Addr} {e : PacketEncoder H T.B} {timeout : Nat} {point : EncoderPoint T.B}

/-- The encoder of a thread that is in no call. -/
theorem idle (hlib : Bounded T) (h : Through T n events s) (hthread : s.encoder n = .running e timeout point none) :
    Idle T 1 e := by
  obtain ⟨arrived, -, htook⟩ := h.arrived
  rw [hthread] at htook
  obtain ⟨made, encoder, labels, thread, hstarts, hpath, -, -, hmirrors⟩ := htook
  exact hmirrors.1 ▸ (EncoderThread.keeps_of_path hlib hstarts hpath).idle

/-- That of a thread whose call waits. -/
theorem inCall (hlib : Bounded T) {w : EncoderWait T.B} (h : Through T n events s)
    (hthread : s.encoder n = .running e timeout point (some w)) :
    ∃ e0 op, Idle T 1 e0 ∧ InCall T.encoder e0 op (some w) e := by
  obtain ⟨arrived, -, htook⟩ := h.arrived
  rw [hthread] at htook
  obtain ⟨made, encoder, labels, thread, hstarts, hpath, -, -, -, op, -, hcall⟩ := htook
  exact ⟨_, op, (EncoderThread.keeps_of_path hlib hstarts hpath).idle, hcall⟩

end Through

section Quiet
variable {n : In6Addr} {e : PacketEncoder H T.B} {timeout : Nat}

/-- A thread with nothing to do waits for ever, and its socket writer sends what it has. -/
theorem exists_quiet_of_top (hthread : s.encoder n = .running e 0 .top none) (hpool : (s.switch.encoder_pool n).pool = [])
    (hpending : s.pendingFor n = []) :
    ∃ events s', StepPath (Step T addr expire_time) s events s' ∧ s'.Quiet n ∧ routedTo n events = [] ∧
      s'.switch.tap_read = s.switch.tap_read ∧ (s'.writer n).sent = [] ∧ s'.encoder n = .running e 0 .waiting none := by
  let s1 := s.goOn n (.running e 0 .waiting none)
  obtain ⟨events, given, hpath, hnone, -⟩ := exists_drained addr expire_time s1 n
  have hwriter : ((s1.free given).write n ⟨⟨[]⟩, [], []⟩).writer n = ⟨⟨[]⟩, [], []⟩ := write_self
  have hencoder : s1.encoder n = .running e 0 .waiting none := Function.update_self ..
  refine ⟨_, _, .cons (.wait hthread hpool) hpath, ⟨⟨e, hencoder⟩, ?_, by rw [hwriter], by rw [hwriter]⟩, hnone, rfl,
    by rw [hwriter], hencoder⟩
  show ((s1.encoder n).batch ++ (s.switch.encoder_pool n).pool).map PacketBuffer.data ++ s.pendingFor n = []
  rw [hencoder, hpool, hpending]
  rfl

/-- **A wait that times out leaves the node quiet**: the flush may have to wait for a buffer, but then it has
pushed one, which the socket writer gives back; behind the wait it pushes no more. -/
theorem exists_quiet_of_timedOut (hlib : Bounded T) (hthrough : Through (T.to (addr n)) n events s)
    (hthread : s.encoder n = .running e timeout .timedOut none) (hpool : (s.switch.encoder_pool n).pool = [])
    (hpending : s.pendingFor n = []) :
    ∃ events s', StepPath (Step T addr expire_time) s events s' ∧ s'.Quiet n ∧ routedTo n events = [] ∧
      s'.switch.tap_read = s.switch.tap_read ∧ (s'.writer n).sent = [] ∧
      ∀ wait e1, (startTurn (T.to (addr n)).encoder 0 .flush).run (s.lend e) = .ok wait e1 →
        (s'.encoder n).datagrams = e1.tx_buffer_pool.pool := by
  have hidle : Idle (T.to (addr n)) 1 (s.lend e) :=
    EncoderThread.idle_of_available (hthrough.idle (T := T.to (addr n)) hlib hthread)
      s.switch.available_rx_buffer_pool
  obtain ⟨fuel, wait, e1, datagrams, hrun, hpushed, hsome⟩ :=
    hidle.exists_startTurn (T := T.to (addr n)) hlib .flush
  let s1 := s.settle n (behind e1 timeout .timedOut wait) e1.available_buffer_pool datagrams
  have hstep : Step T addr expire_time s .silent s1 := .flush hthread hrun hpushed
  have hencoder : s1.encoder n = behind e1 timeout .timedOut wait := Function.update_self ..
  cases wait with
  | none =>
    obtain ⟨events', s', hpath, hquiet, hnone, htap, hsent, hthread'⟩ := exists_quiet_of_top hencoder hpool hpending
    refine ⟨_, s', .cons hstep hpath, hquiet, hnone, htap, hsent, fun wait e1' hrun' => ?_⟩
    obtain ⟨-, rfl⟩ := EStateM.Result.ok.inj (hrun.symm.trans hrun')
    rw [hthread']
    rfl
  | some w =>
    obtain rfl := startTurn_flush_wait hrun
    obtain ⟨events2, given, hpath2, hnone2, hgiven⟩ := exists_drained addr expire_time s1 n
    let s2 := (s1.free given).write n ⟨⟨[]⟩, [], []⟩
    obtain ⟨b, pool, hcons⟩ : ∃ b pool, s2.switch.available_rx_buffer_pool.pool = b :: pool := by
      refine List.exists_cons_of_ne_nil fun hnil => hsome rfl ?_
      have hgiven' : given = [] := (List.append_eq_nil_iff.mp hnil).2
      rw [hgiven, settle_pushed] at hgiven'
      exact (List.append_eq_nil_iff.mp (List.append_eq_nil_iff.mp hgiven').2).2
    obtain ⟨fuel', wait', e3, datagrams', hrun', hpushed', -⟩ :=
      exists_resume (T := T.to (addr n)) b pool hidle hlib (.start hrun)
    have hbounds := (T.to (addr n)).size_bounds
    have h8 : PacketHeader.size = 8 := rfl
    obtain ⟨rfl, hsame⟩ := resume_flush (by omega) hrun'
    have hlent : s2.lend e1 = e1.withPool (b :: pool) := by
      rw [lend, ← hcons]
    rw [← hlent] at hrun'
    let s3 := s2.settle n (behind e3 timeout .timedOut none) e3.available_buffer_pool datagrams'
    have hresume : Step T addr expire_time s2 .silent s3 := .resume (w := .flush) hencoder hrun' hpushed'
    have hencoder3 : s3.encoder n = .running e3 0 .top none := Function.update_self ..
    obtain ⟨events', s', hpath, hquiet, hnone, htap, hsent, hthread'⟩ := exists_quiet_of_top hencoder3 hpool hpending
    refine ⟨_, s', .cons hstep (hpath2.append (.cons hresume hpath)), hquiet, ?_, htap, hsent, fun wait e1' hother => ?_⟩
    rotate_left
    · obtain ⟨-, rfl⟩ := EStateM.Result.ok.inj (hrun.symm.trans hother)
      rw [hthread']
      exact congrArg BufferPool.pool hsame
    have hsilent : ∀ events : List (TransmitEvent T.B), routedTo n (.silent :: events) = routedTo n events :=
      fun _ => rfl
    rw [hsilent, routedTo_append, hnone2, hsilent, hnone]
    rfl

end Quiet

/-! ## A frame that goes all the way -/

variable (addr expire_time) in
/-- A new thread encodes the frame that is queued, and waits for more in vain. -/
theorem exists_timedOut {n : In6Addr} {comp_buffer buffer : PacketBuffer T.B} {pool : List (PacketBuffer T.B)}
    {e e' : PacketEncoder H T.B} {fuel : Nat} (hnode : n ∈ s.switch.remote_nodes) (hthread : s.encoder n = .starting)
    (hpool : s.switch.available_rx_buffer_pool.pool = comp_buffer :: pool)
    (hqueue : (s.switch.encoder_pool n).pool = [buffer])
    (hnew : (do _getTxBuffer; setPacketFormat T.libs T.packet_format : EncoderCall H T.B Unit).run
      { init ⟨[]⟩ ⟨pool⟩ with comp_buffer := some comp_buffer } = .ok () e)
    (hencode : (startTurn (T.to (addr n)).encoder fuel (.encode buffer)).run e = .ok none e') :
    ∃ s1 s', StepPath (Step T addr expire_time) s (List.replicate 2 .silent) s1 ∧
      s1.switch.available_rx_buffer_pool = e.available_buffer_pool ∧
      StepPath (Step T addr expire_time) s1 (List.replicate 5 .silent) s' ∧
      s'.encoder n = .running e' 1 .timedOut none ∧ (s'.switch.encoder_pool n).pool = [] ∧
      s'.broadcast = s.broadcast ∧ s'.switch.tap_read = s.switch.tap_read ∧
      s'.switch.available_rx_buffer_pool = e'.available_buffer_pool := by
  have hpop : s.switch.available_rx_buffer_pool.pop_wait = .ok (comp_buffer, ⟨pool⟩) := by
    rw [BufferPool.pop_wait, hpool]
  obtain ⟨datagrams, hpushed, -⟩ := (startTurn_turns _).exists_datagrams hencode
  let s1 := s.settle n (.constructing comp_buffer) ⟨pool⟩ []
  have hencoder1 : s1.encoder n = .constructing comp_buffer := Function.update_self ..
  let s2 := s1.settle n (.running e 1 .top none) e.available_buffer_pool []
  have hencoder2 : s2.encoder n = .running e 1 .top none := Function.update_self ..
  let s3 := s2.take n e 1
  have hencoder3 : s3.encoder n = .running e 1 (.batch [buffer]) none := by
    rw [← hqueue]
    exact Function.update_self ..
  let s4 := s3.settle n (.running e' 1 (.batch []) none) e'.available_buffer_pool datagrams
  have hencoder4 : s4.encoder n = .running e' 1 (.batch []) none := Function.update_self ..
  have hqueue4 : (s4.switch.encoder_pool n).pool = [] := congrArg BufferPool.pool (Function.update_self ..)
  let s5 := s4.goOn n (.running e' 1 .top none)
  have hencoder5 : s5.encoder n = .running e' 1 .top none := Function.update_self ..
  let s6 := s5.goOn n (.running e' 1 .waiting none)
  have hencoder6 : s6.encoder n = .running e' 1 .waiting none := Function.update_self ..
  refine ⟨s2, s6.goOn n (.running e' 1 .timedOut none),
    .cons (.construct hnode hthread hpop) (.single (.constructed hencoder1 hnew)), rfl, ?_, Function.update_self ..,
    hqueue4, rfl, rfl, rfl⟩
  have hitems : (s2.switch.encoder_pool n).pool ≠ [] := by
    show (s.switch.encoder_pool n).pool ≠ []
    rw [hqueue]
    exact List.cons_ne_nil _ _
  refine .cons (.items hencoder2 hitems) (.cons (.encode hencoder3 hencode hpushed) ?_)
  exact .cons (.encoded hencoder4) (.cons (.wait hencoder5 hqueue4) (.single (.timeout hencoder6 one_ne_zero)))

/-- A short frame for a group. -/
def groupFrame : List UInt8 := [1, 0, 94, 0, 0, 1, 2, 0, 0, 0, 0, 1, 8, 0, 1, 2]

theorem groupFrame_fits : groupFrame.length ≤ (Tunnel.smallestLZ4 (.inet 58023 #v[192, 0, 2, 1])).B := by decide

/-- With three buffers in the smallest configuration: the frame is sent as it is.  On the way no buffer is
free. -/
theorem exists_sent_groupFrame :
    let n := mappedAddr #v[192, 0, 2, 1]
    let T := Tunnel.smallestLZ4 (.inet 58023 #v[192, 0, 2, 1])
    ∃ (events : List (TransmitEvent T.B)) (s : TransmitSide (List (List UInt8)) T.B),
      StepPath (Step T (fun _ => T.dst_addr) 300) (.start [n] (PacketBuffer.fresh 0 3)) events s ∧
      routedTo n events = [groupFrame] ∧ s.Quiet n ∧ s.switch.tap_read = .reading none ∧
      (s.writer n).sent = [] ∧ (sentTo n events).map PacketBuffer.data =
        [(⟨1, [.whole (.plain 0 groupFrame [])]⟩ : Datagram (List (List UInt8))).bytes .little] ∧
      ∃ before between after, events = before ++ after ∧
        StepPath (Step T (fun _ => T.dst_addr) 300) (.start [n] (PacketBuffer.fresh 0 3)) before between ∧
        between.switch.available_rx_buffer_pool.pool = [] ∧
        StepPath (Step T (fun _ => T.dst_addr) 300) between after s := by
  intro n T
  have hframe : GroupFrame T.B groupFrame := ⟨by decide, groupFrame_fits, by decide, by decide⟩
  let b : Nat → PacketBuffer T.B := fun id => .ofData id [] (Nat.zero_le _)
  have hlib : Bounded T := fun _ => (StreamCompressor.literals_lossless _ _).toCompressBounded
  let addr : In6Addr → SockaddrStorage := fun _ => T.dst_addr
  -- the reader
  obtain ⟨events1, s1, hpath1, hrest, hencoder, -, hpool, hqueue, hrouted, -⟩ :=
    AtRest.exists_routed (T := T) addr 300 (s := .start [n] [b 0, b 1, b 2]) ⟨rfl, rfl, rfl, rfl⟩ hframe rfl
  -- the constructor of the encoder, and its calls
  obtain ⟨wait', e3, hrun, hdata⟩ := Call.exists_of_okAnd
    (p := fun e => e.tx_buffer_pool.pool.map PacketBuffer.data ==
      [(⟨1, [.whole (.plain 0 groupFrame [])]⟩ : Datagram (List (List UInt8))).bytes .little])
    (r := (do
      (do _getTxBuffer; setPacketFormat T.libs T.packet_format)
      let wait ← startTurn T.encoder 1 (.encode ((b 0).readFrom groupFrame groupFrame_fits))
      if wait.isNone then startTurn T.encoder 0 .flush else throw .running :
        EncoderCall (List (List UInt8)) T.B (Option (EncoderWait T.B))).run
      { init ⟨[]⟩ ⟨[b 2]⟩ with comp_buffer := some (b 1) })
    (by decide +kernel)
  obtain ⟨_, e1, hnew, hrun⟩ := Call.run_bind_eq_ok.mp hrun
  obtain ⟨wait, e2, hencode, hrun⟩ := Call.run_bind_eq_ok.mp hrun
  have hnone : e1.available_buffer_pool.pool = [] := by
    obtain ⟨_, e1', hnew', hnone⟩ := Call.exists_of_okAnd (p := fun e => e.available_buffer_pool.pool.isEmpty)
      (r := (do _getTxBuffer; setPacketFormat T.libs T.packet_format : EncoderCall (List (List UInt8)) T.B Unit).run
        { init ⟨[]⟩ ⟨[b 2]⟩ with comp_buffer := some (b 1) }) (by decide +kernel)
    obtain ⟨-, rfl⟩ := EStateM.Result.ok.inj (hnew.symm.trans hnew')
    exact List.isEmpty_iff.mp hnone
  cases wait with
  | some w => cases hrun
  | none =>
    have hnode : n ∈ s1.switch.remote_nodes := by
      rw [hrest.remote_nodes]
      exact List.mem_singleton_self n
    obtain ⟨between, s2, hbefore, hempty, hpath2, hthread2, hqueue2, houtside2, htap2, hpool2⟩ :=
      exists_timedOut addr 300 hnode (congrFun hencoder n) hpool hqueue hnew hencode
    have hbefore := hpath1.append hbefore
    have hpath := hbefore.append hpath2
    have hpending : s2.pendingFor n = [] := by
      rw [pendingFor, houtside2, hrest.outside]
    obtain ⟨events', s', hpath', hquiet, hsilent, htap, hsent, hpushed⟩ := exists_quiet_of_timedOut hlib
      (Through.of_path (List.nodup_singleton n) (List.cons_ne_nil _ _) hpath n) hthread2 hqueue2 hpending
    have hpath := hpath.append hpath'
    refine ⟨_, s', hpath, ?_, hquiet, htap.trans (htap2.trans hrest.reader), hsent, ?_, _, between, _,
      List.append_assoc _ _ _, hbefore, (congrArg BufferPool.pool hempty).trans hnone, hpath2.append hpath'⟩
    · rw [routedTo_append, routedTo_append, routedTo_append, hrouted, routedTo_replicate, routedTo_replicate, hsilent]
      rfl
    · -- what was pushed was sent
      have hlent : s2.lend e2 = e2 := by
        rw [lend, hpool2]
      have hthrough := (Through.of_path (List.nodup_singleton n) (List.cons_ne_nil _ _) hpath n).pushed
      rw [hpushed wait' e3 (hlent.symm ▸ hrun), hquiet.buffers, hquiet.socket_write_pool, List.append_nil,
        List.append_nil] at hthrough
      rw [← hthrough]
      exact beq_iff_eq.mp hdata

/-! ## The results -/

section Results

/-- **No thread of the transmitting half loses or duplicates a buffer**: whatever the threads did, in
whatever order, each buffer of the available pool is in one place, and an encoder has the buffers it must
have where it is. -/
theorem transmit_side_conserves_buffers (havailable : (ids available).Nodup) (hnodup : remote_nodes.Nodup)
    (hne : remote_nodes ≠ [])
    (hrun : StepPath (Step T addr expire_time) (.start remote_nodes available) events s) :
    s.places = ids available ∧ s.places.Nodup ∧ ∀ n, (s.encoder n).Equipped T.packet_format := by
  have howned := Owned.of_path hnodup hne hrun
  refine ⟨howned.places, ?_, howned.equipped⟩
  rw [howned.places]
  exact havailable

theorem transmit_side_conserves_buffers_groupFrame :
    let n := mappedAddr #v[192, 0, 2, 1]
    let T := Tunnel.smallestLZ4 (.inet 58023 #v[192, 0, 2, 1])
    ∃ (events : List (TransmitEvent T.B)) (s : TransmitSide (List (List UInt8)) T.B),
      routedTo n events = [groupFrame] ∧ s.Quiet n ∧ s.places = ids (PacketBuffer.fresh (B := T.B) 0 3) ∧
        s.places.Nodup ∧ ∀ n, (s.encoder n).Equipped T.packet_format := by
  intro n T
  obtain ⟨events, s, hrun, hrouted, hquiet, -⟩ := exists_sent_groupFrame
  exact ⟨events, s, hrouted, hquiet,
    transmit_side_conserves_buffers (by decide) (List.nodup_singleton n) (List.cons_ne_nil _ _) hrun⟩

/-- **A node is sent all that was for it, in order.** -/
theorem transmit_side_in_order (hlib : Bounded T) (hnodup : remote_nodes.Nodup) (hne : remote_nodes ≠ [])
    (hrun : StepPath (Step T addr expire_time) (.start remote_nodes available) events s) (n : In6Addr) :
    InOrder (T.to (addr n)) n events s :=
  Through.inOrder hlib (.of_path hnodup hne hrun n)

theorem transmit_side_in_order_groupFrame :
    let n := mappedAddr #v[192, 0, 2, 1]
    let T := Tunnel.smallestLZ4 (.inet 58023 #v[192, 0, 2, 1])
    ∃ (events : List (TransmitEvent T.B)) (s : TransmitSide (List (List UInt8)) T.B),
      routedTo n events = [groupFrame] ∧ s.Quiet n ∧ InOrder T n events s := by
  intro n T
  obtain ⟨events, s, hrun, hrouted, hquiet, -⟩ := exists_sent_groupFrame
  exact ⟨events, s, hrouted, hquiet, transmit_side_in_order (T := T)
    (fun _ => (StreamCompressor.literals_lossless _ _).toCompressBounded) (List.nodup_singleton n)
    (List.cons_ne_nil _ _) hrun n⟩

end Results

end TransmitSide
end SuperEthd
