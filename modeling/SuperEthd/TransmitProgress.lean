import Mathlib.Algebra.Order.BigOperators.Group.Finset
import SuperEthd.TransmitRuns

/-! # The transmitting half goes on

Whatever frames are read, no thread of the transmitting half throws or waits while a buffer is free, but
for the reader that follows the null destination of a local station; and when all nodes are quiet, the
buffers are back. -/
namespace SuperEthd
open PacketHeaderOptionFormatType PacketEncoder

variable {H : Type} {B : Nat}

/-- The thread has not seen the stop flag. -/
def SenderThread.Going : SenderThread H B → Prop
  | .running _ _ .stopped _ => False
  | _ => True

namespace TransmitSide
variable {T : Tunnel H} {addr : In6Addr → SockaddrStorage} {expire_time : Int} {remote_nodes : List In6Addr}
  {available : List (PacketBuffer T.B)} {s s' : TransmitSide H T.B} {events : List (TransmitEvent T.B)}

/-- **Every thread goes on**, but for a reader with a frame for a station that is local. -/
structure GoesOn (T : Tunnel H) (addr : In6Addr → SockaddrStorage) (expire_time : Int)
    (s : TransmitSide H T.B) : Prop where
  pop : s.switch.tap_read = .reading none →
    ∃ buffer s', Step T addr expire_time s .silent s' ∧ s'.switch.tap_read = .reading (some buffer)
  read : ∀ buffer frame, s.switch.tap_read = .reading (some buffer) → frame ≠ [] → frame.length ≤ T.B →
    ∃ buffer' s', Step T addr expire_time s .silent s' ∧ buffer'.data = frame ∧
      s'.switch.tap_read.buffers = [buffer']
  add : ∀ buffer, s.switch.tap_read = .adding buffer →
    ∃ s', Step T addr expire_time s .silent s' ∧ s'.switch.tap_read = .forwarding buffer
  forward : ∀ buffer, s.switch.tap_read = .forwarding buffer → s.broadcast = none →
    (isMulticast buffer.dst_mac = false → ∀ entry, s.switch.learning.fdb.getRemoteNode buffer.dst_mac = some entry →
      entry.isLocal = false) →
    ∃ nodes s', Step T addr expire_time s (.routed buffer nodes) s'
  branch : s.broadcast ≠ none → ∃ s', Step T addr expire_time s .silent s' ∧ s'.broadcast ≠ s.broadcast
  encoder : ∀ n ∈ s.switch.remote_nodes, ∃ s', Step T addr expire_time s .silent s' ∧ s'.encoder n ≠ s.encoder n
  writer : ∀ n, (s.writer n).buffers ≠ [] → ∃ datagram s', Step T addr expire_time s (.sent n datagram) s'

/-! ## The reader -/

/-- A reader in the branch for a multicast destination moves. -/
theorem Owned.exists_branch (hnodup : remote_nodes.Nodup) (hne : remote_nodes ≠ [])
    (h : Owned remote_nodes T.packet_format available s) (hfree : s.switch.available_rx_buffer_pool.pool ≠ [])
    (hinside : s.broadcast ≠ none) : ∃ s', Step T addr expire_time s .silent s' ∧ s'.broadcast ≠ s.broadcast := by
  obtain ⟨⟨pointer, point⟩, hbroadcast⟩ := Option.ne_none_iff_exists'.mp hinside
  have hbranch := h.branch
  unfold InBranch at hbranch
  rw [hbroadcast, h.remote_nodes_eq] at hbranch
  obtain ⟨buffer, labels, -, hinv⟩ := hbranch
  rcases hinv.moves h.remote_nodes_eq hnodup hne with ⟨event, t, hnext, hmove⟩ | ⟨-, hdone | hempty⟩
  · refine ⟨_, .branch hbroadcast hnext, ?_⟩
    rw [hbroadcast]
    intro heq
    have hpoint : t.point = point := congrArg Prod.snd (Option.some.inj heq)
    cases hmove with
    | single h0 => cases (show point = _ from h0) ▸ hpoint
    | enter h0 => cases (show point = _ from h0) ▸ hpoint
    | finish h0 => cases (show point = _ from h0) ▸ hpoint
    | last h0 => cases (show point = _ from h0) ▸ hpoint
    | take h0 => cases (show point = _ from h0) ▸ hpoint
    | copy h0 => cases (show point = _ from h0) ▸ hpoint
  · obtain rfl : point = .done := hdone
    refine ⟨_, .back hbroadcast, ?_⟩
    rw [hbroadcast]
    intro heq
    cases heq
  · exact absurd hempty hfree

/-- A reader with a frame learns from it, or drops it. -/
theorem exists_read {buffer : PacketBuffer T.B} {frame : List UInt8} (hlearns : s.switch.Learns)
    (hreader : s.switch.tap_read = .reading (some buffer)) (hfilled : frame ≠ []) (hfits : frame.length ≤ T.B) :
    ∃ buffer' s', Step T addr expire_time s .silent s' ∧ buffer'.data = frame ∧
      s'.switch.tap_read.buffers = [buffer'] := by
  have hidle : s.switch.learning.pending .tap_read = none := by
    unfold PacketSwitch.Learns at hlearns
    rw [hreader] at hlearns
    exact hlearns
  let source := (buffer.readFrom frame hfits).src_mac
  have hdata : (buffer.readFrom frame hfits).data = frame := PacketBuffer.data_readFrom hfits
  by_cases hsource : isMulticast source = true
  · have hdropped : Learning.Step expire_time s.switch.learning (.dropped source none) _ := .dropped hidle hsource
    exact ⟨_, _, .learn (.dropped hreader hfilled hfits hdropped), hdata, rfl⟩
  have hsource := Bool.eq_false_iff.mpr hsource
  cases hget : s.switch.learning.fdb.get source with
  | some entry =>
    have hfound : Learning.Step expire_time s.switch.learning (.sighted source none 0) _ :=
      .found hidle hsource hget
    exact ⟨_, _, .learn (.found hreader hfilled hfits hfound), hdata, rfl⟩
  | none =>
    have hmissed : Learning.Step expire_time s.switch.learning (.missed source none) _ :=
      .missed hidle hsource hget
    exact ⟨_, _, .learn (.missed hreader hfilled hfits hmissed), hdata, rfl⟩

/-- A reader behind its learning routes the frame. -/
theorem exists_forward {buffer : PacketBuffer T.B} (hreader : s.switch.tap_read = .forwarding buffer)
    (houtside : s.broadcast = none)
    (hremote : isMulticast buffer.dst_mac = false → ∀ entry,
      s.switch.learning.fdb.getRemoteNode buffer.dst_mac = some entry → entry.isLocal = false) :
    ∃ nodes s', Step T addr expire_time s (.routed buffer nodes) s' := by
  by_cases hgroup : isMulticast buffer.dst_mac = true
  · exact ⟨_, _, .multicast hreader houtside hgroup⟩
  have hstation := Bool.eq_false_iff.mpr hgroup
  cases hget : s.switch.learning.fdb.getRemoteNode buffer.dst_mac with
  | none => exact ⟨_, _, .unicast hreader houtside hstation (PacketSwitch.forward_unknown hstation hget)⟩
  | some entry =>
    cases hdest : entry.dest with
    | none =>
      have hlocal : entry.isLocal = true := Option.isNone_iff_eq_none.mpr hdest
      exact absurd hlocal (Bool.eq_false_iff.mp (hremote hstation entry hget))
    | some node => exact ⟨_, _, .unicast hreader houtside hstation (PacketSwitch.forward_remote hstation hget hdest)⟩

/-! ## An encoder thread -/

/-- A thread that moves. -/
theorem going_update {n : In6Addr} {thread : SenderThread H T.B} (h : ∀ m, (s.encoder m).Going) (hthread : thread.Going) :
    ∀ m, (Function.update s.encoder n thread m).Going := by
  intro m
  by_cases hm : m = n
  · rw [hm, Function.update_self]
    exact hthread
  · rw [Function.update_of_ne hm]
    exact h m

theorem going_behind {e : PacketEncoder H B} {timeout : Nat} {point : EncoderPoint B} (wait : Option (EncoderWait B))
    (h : point ≠ .stopped) : (behind e timeout point wait).Going := by
  cases wait with
  | none => cases point <;> trivial
  | some w => cases point <;> trivial

/-- **One step** of any thread. -/
theorem going_step {event : TransmitEvent T.B} (h : ∀ n, (s.encoder n).Going)
    (hstep : Step T addr expire_time s event s') : ∀ n, (s'.encoder n).Going := by
  cases hstep with
  | construct | constructed | items | wait | wake | timeout | encoded => exact going_update h trivial
  | @flush n e e' timeout fuel wait => exact going_update h (going_behind wait fun heq => by cases heq)
  | @encode n e e' timeout fuel buffer buffers wait =>
    exact going_update h (going_behind wait fun heq => by cases heq)
  | @resume n e e' timeout fuel point w wait datagrams hthread =>
    refine going_update h (going_behind wait fun heq => ?_)
    have hpoint := h n
    rw [hthread, heq] at hpoint
    exact hpoint
  | learn | pop | unicast | multicast | branch | back | writerWait | send | giveBack => exact h

/-- The constructor returns when there is a buffer for it. -/
theorem exists_constructed (T : Tunnel H) (comp_buffer b : PacketBuffer T.B) (pool : List (PacketBuffer T.B)) :
    ∃ e, (do _getTxBuffer; setPacketFormat T.libs T.packet_format : EncoderCall H T.B Unit).run
      { init ⟨[]⟩ ⟨b :: pool⟩ with comp_buffer := some comp_buffer } = .ok () e := by
  have hbounds := T.size_bounds
  have h8 : PacketHeader.size = 8 := rfl
  have hformat : ∀ e : PacketEncoder H T.B, ∃ e', (setPacketFormat T.libs T.packet_format).run e = .ok () e' := by
    intro e
    rcases T.known with hf | hf | hf <;> rw [hf] <;> exact ⟨_, rfl⟩
  rcases _getTxBuffer_run (e := ({ init ⟨[]⟩ ⟨b :: pool⟩ with comp_buffer := some comp_buffer } : PacketEncoder H T.B))
    (by omega) with ⟨hempty, -⟩ | ⟨tx, -, hget⟩
  · cases hempty
  · obtain ⟨e', hrun⟩ := hformat _
    exact ⟨e', (Call.run_bind_of_ok hget).trans hrun⟩

/-- A call that starts moves its thread. -/
theorem behind_ne {e e' : PacketEncoder H T.B} {timeout : Nat} {before point : EncoderPoint T.B} {op : Op T.B}
    (hat : CallAt before op point) (wait : Option (EncoderWait T.B)) :
    behind e' timeout point wait ≠ .running e timeout before none := by
  intro heq
  cases wait with
  | some w => cases heq
  | none =>
    cases hat with
    | flush => cases heq
    | encode buffer buffers =>
      have hbuffers : buffers = buffer :: buffers :=
        EncoderPoint.batch.inj (SenderThread.running.inj heq).2.2.1
      exact List.cons_ne_self _ _ hbuffers.symm

/-- **An encoder thread moves**, whatever it is at. -/
theorem exists_encoderStep (hlib : Bounded T) {n : In6Addr} (hn : n ∈ s.switch.remote_nodes)
    (hthrough : Through (T.to (addr n)) n events s) (hgoing : ∀ n, (s.encoder n).Going)
    (hfree : s.switch.available_rx_buffer_pool.pool ≠ []) :
    ∃ s', Step T addr expire_time s .silent s' ∧ s'.encoder n ≠ s.encoder n := by
  obtain ⟨b, pool, hpool⟩ := List.exists_cons_of_ne_nil hfree
  have hpop : s.switch.available_rx_buffer_pool.pop_wait = .ok (b, ⟨pool⟩) := by
    rw [BufferPool.pop_wait, hpool]
  have hmoved : ∀ {s' : TransmitSide H T.B} {thread : SenderThread H T.B}, Step T addr expire_time s .silent s' →
      s'.encoder = Function.update s.encoder n thread → thread ≠ s.encoder n →
      ∃ s', Step T addr expire_time s .silent s' ∧ s'.encoder n ≠ s.encoder n := by
    intro s' thread hstep hencoder hne
    refine ⟨s', hstep, ?_⟩
    rw [hencoder, Function.update_self]
    exact hne
  have hlend : ∀ e : PacketEncoder H T.B, s.lend e = e.withPool (b :: pool) := by
    intro e
    rw [lend, ← hpool]
  cases hthread : s.encoder n with
  | starting =>
    rw [← hthread]
    exact hmoved (.construct hn hthread hpop) rfl (by rw [hthread]; exact fun heq => by cases heq)
  | constructing comp_buffer =>
    obtain ⟨e, hrun⟩ := exists_constructed T comp_buffer b pool
    have hstep : Step T addr expire_time s .silent _ := .constructed hthread (by rw [← hpool] at hrun; exact hrun)
    rw [← hthread]
    exact hmoved hstep rfl (by rw [hthread]; exact fun heq => by cases heq)
  | running e timeout point wait =>
    rw [← hthread]
    cases wait with
    | some w =>
      obtain ⟨e0, op, hidle, hcall⟩ := hthrough.inCall (T := T.to (addr n)) hlib hthread
      obtain ⟨fuel, wait', e', datagrams, hrun, hpushed, hsome⟩ :=
        exists_resume (T := T.to (addr n)) b pool hidle hlib hcall
      rw [← hlend] at hrun
      refine hmoved (.resume hthread hrun hpushed) rfl fun heq => ?_
      rw [hthread] at heq
      cases wait' with
      | none => cases point <;> cases heq
      | some w' =>
        -- a call that waits again has pushed another datagram
        obtain rfl := (SenderThread.running.inj heq).1
        exact hsome rfl (List.append_cancel_left (hpushed.symm.trans (List.append_nil _).symm))
    | none =>
      have hidle : Idle (T.to (addr n)) 1 (s.lend e) :=
        EncoderThread.idle_of_available (hthrough.idle (T := T.to (addr n)) hlib hthread)
          s.switch.available_rx_buffer_pool
      cases point with
      | top =>
        by_cases hitems : (s.switch.encoder_pool n).pool = []
        · exact hmoved (.wait hthread hitems) rfl (by rw [hthread]; exact fun heq => by cases heq)
        · exact hmoved (.items hthread hitems) rfl (by rw [hthread]; exact fun heq => by cases heq)
      | waiting => exact hmoved (.wake hthread) rfl (by rw [hthread]; exact fun heq => by cases heq)
      | timedOut =>
        obtain ⟨fuel, wait, e', datagrams, hrun, hpushed, -⟩ :=
          hidle.exists_startTurn (T := T.to (addr n)) hlib .flush
        exact hmoved (.flush hthread hrun hpushed) rfl (by rw [hthread]; exact behind_ne .flush wait)
      | batch buffers =>
        cases buffers with
        | nil => exact hmoved (.encoded hthread) rfl (by rw [hthread]; exact fun heq => by cases heq)
        | cons buffer buffers =>
          obtain ⟨fuel, wait, e', datagrams, hrun, hpushed, -⟩ :=
            hidle.exists_startTurn (T := T.to (addr n)) hlib (.encode buffer)
          exact hmoved (.encode hthread hrun hpushed) rfl (by rw [hthread]; exact behind_ne (.encode buffer buffers) wait)
      | stopped =>
        have hgoing := hgoing n
        rw [hthread] at hgoing
        exact hgoing.elim

/-! ## The buffers of a quiet node -/

/-- The encoder of a thread that waits for ever is drained. -/
theorem Through.drained (hlib : Bounded T) {n : In6Addr} (h : Through T n events s) {e : PacketEncoder H T.B}
    (hthread : s.encoder n = .running e 0 .waiting none) : EncoderThread.Drained e := by
  obtain ⟨arrived, -, htook⟩ := h.arrived
  rw [hthread] at htook
  obtain ⟨made, encoder, labels, thread, hstarts, hpath, -, -, -, -, -, hsettled⟩ := htook.exists_thread hlib
  obtain ⟨rfl, htimeout, hpoint⟩ := hsettled rfl
  exact (EncoderThread.keeps_of_path hlib hstarts hpath).drained ⟨Or.inr hpoint, htimeout⟩

/-- The encoder of a quiet node has its `tx_buffer`, and its `comp_buffer`, which it needs if a format is set. -/
theorem card_held_of_quiet (hlib : Bounded T) {n : In6Addr} (hthrough : Through (T.to (addr n)) n events s)
    (hequipped : (s.encoder n).Equipped T.packet_format) (hquiet : s.Quiet n) :
    (s.encoder n).held.card ≤ 2 ∧ (T.packet_format ≠ NONE → (s.encoder n).held.card = 2) := by
  obtain ⟨e, hthread⟩ := hquiet.encoder
  have hdrained := hthrough.drained (T := T.to (addr n)) hlib hthread
  obtain ⟨tx, htx, -⟩ := hdrained.tx_buffer
  have hheld : (s.encoder n).held.card = 1 + (ids e.comp_buffer.toList).card := by
    rw [hthread, SenderThread.held, PacketEncoder.own, hdrained.inflight_buffers, htx]
    simp only [EncoderPoint.buffers, waitBuffers, Option.elim_none, ids_nil, add_zero, Multiset.card_add]
    rfl
  rw [hthread] at hequipped
  obtain ⟨m, hidle⟩ := hequipped
  have hidle : OwnsIdle m T.packet_format e := hidle
  rw [hheld]
  cases hcomp : e.comp_buffer with
  | none =>
    refine ⟨Nat.le_succ 1, fun hformat => ?_⟩
    have hsome := hidle.comp_buffer hformat
    rw [hcomp] at hsome
    cases hsome
  | some comp => exact ⟨Nat.le_refl 2, fun _ => rfl⟩

/-- Where every node is quiet, only the pool, the reader and the encoders have buffers. -/
theorem Owned.places_of_quiet {format : PacketHeaderOptionFormatType} (h : Owned remote_nodes format available s)
    (hquiet : ∀ n ∈ remote_nodes, s.Quiet n ∧ (s.writer n).sent = []) (houtside : s.broadcast = none) :
    ids s.switch.available_rx_buffer_pool.pool + ids s.switch.tap_read.buffers +
      ∑ n ∈ remote_nodes.toFinset, (s.encoder n).held = ids available := by
  have hqueue : ∑ n ∈ remote_nodes.toFinset, ids (s.switch.encoder_pool n).pool = 0 := by
    refine Finset.sum_eq_zero fun n hn => ?_
    obtain ⟨hcoming, -⟩ := List.append_eq_nil_iff.mp (hquiet n (List.mem_toFinset.mp hn)).1.coming
    rw [(List.append_eq_nil_iff.mp (List.map_eq_nil_iff.mp hcoming)).2, ids_nil]
  have hwriter : ∑ n ∈ remote_nodes.toFinset, (s.writer n).held = 0 := by
    refine Finset.sum_eq_zero fun n hn => ?_
    obtain ⟨hquiet, hsent⟩ := hquiet n (List.mem_toFinset.mp hn)
    simp only [SocketWriter.held, hquiet.buffers, hquiet.socket_write_pool, hsent, ids_nil, add_zero]
  have hplaces := h.places
  simp only [TransmitSide.places, reading, houtside, h.remote_nodes_eq, hqueue, hwriter, add_zero] at hplaces
  exact hplaces

/-- **The buffers are back**: each is free, or with the reader, or one of the two that an encoder has while it
waits for frames; it needs only one where it does not compress. -/
structure GivenBack (T : Tunnel H) (remote_nodes : List In6Addr) (available : List (PacketBuffer T.B))
    (s : TransmitSide H T.B) : Prop where
  buffers : ids s.switch.available_rx_buffer_pool.pool + ids s.switch.tap_read.buffers +
    ∑ n ∈ remote_nodes.toFinset, (s.encoder n).held = ids available
  encoder : ∀ n ∈ remote_nodes, (s.encoder n).held.card ≤ 2 ∧
    (T.packet_format ≠ NONE → (s.encoder n).held.card = 2)

/-- All but these are free. -/
theorem GivenBack.length_le (h : GivenBack T remote_nodes available s) (hnodup : remote_nodes.Nodup) :
    available.length ≤ s.switch.available_rx_buffer_pool.pool.length + s.switch.tap_read.buffers.length +
      2 * remote_nodes.length := by
  have hcard := congrArg Multiset.card h.buffers
  simp only [Multiset.card_add, Multiset.card_sum, card_ids] at hcard
  have hencoder : ∑ n ∈ remote_nodes.toFinset, (s.encoder n).held.card ≤ remote_nodes.toFinset.card * 2 :=
    Finset.sum_le_card_nsmul _ _ 2 fun n hn => (h.encoder n (List.mem_toFinset.mp hn)).1
  rw [List.toFinset_card_of_nodup hnodup] at hencoder
  omega

theorem givenBack_of_quiet (hlib : Bounded T) (hnodup : remote_nodes.Nodup) (hne : remote_nodes ≠ [])
    (hrun : StepPath (Step T addr expire_time) (.start remote_nodes available) events s)
    (hquiet : ∀ n ∈ remote_nodes, s.Quiet n ∧ (s.writer n).sent = []) (houtside : s.broadcast = none) :
    GivenBack T remote_nodes available s := by
  have howned := Owned.of_path hnodup hne hrun
  exact ⟨howned.places_of_quiet hquiet houtside, fun n hn =>
    card_held_of_quiet hlib (Through.of_path hnodup hne hrun n) (howned.equipped n) (hquiet n hn).1⟩

/-- With one node, and a reader that has no buffer. -/
theorem length_le_of_quiet (hlib : Bounded T) {n : In6Addr}
    (hrun : StepPath (Step T addr expire_time) (.start [n] available) events s) (hquiet : s.Quiet n)
    (hsent : (s.writer n).sent = []) (hreader : s.switch.tap_read = .reading none) :
    available.length ≤ s.switch.available_rx_buffer_pool.pool.length + 2 := by
  have hne := List.cons_ne_nil n []
  have hback := (givenBack_of_quiet hlib (List.nodup_singleton n) hne hrun
    (fun m hm => List.mem_singleton.mp hm ▸ ⟨hquiet, hsent⟩)
    ((Owned.of_path (List.nodup_singleton n) hne hrun).outside hreader)).length_le (List.nodup_singleton n)
  rw [hreader] at hback
  exact hback

/-! ## The results -/

/-- **The buffers come back**: when every node is quiet and has given back what it sent, each buffer is free
again, but for the one that the reader may have and the two of each encoder. -/
theorem transmit_side_gives_back (hlib : Bounded T) (hnodup : remote_nodes.Nodup) (hne : remote_nodes ≠ [])
    (hrun : StepPath (Step T addr expire_time) (.start remote_nodes available) events s)
    (hquiet : ∀ n ∈ remote_nodes, s.Quiet n ∧ (s.writer n).sent = []) (houtside : s.broadcast = none) :
    GivenBack T remote_nodes available s ∧
      available.length ≤ s.switch.available_rx_buffer_pool.pool.length + s.switch.tap_read.buffers.length +
        2 * remote_nodes.length := by
  have hback := givenBack_of_quiet hlib hnodup hne hrun hquiet houtside
  exact ⟨hback, hback.length_le hnodup⟩

theorem transmit_side_gives_back_groupFrame :
    let n := mappedAddr #v[192, 0, 2, 1]
    let T := Tunnel.smallestLZ4 (.inet 58023 #v[192, 0, 2, 1])
    ∃ (before after : List (TransmitEvent T.B)) (between s : TransmitSide (List (List UInt8)) T.B),
      StepPath (Step T (fun _ => T.dst_addr) 300) (.start [n] (PacketBuffer.fresh 0 3)) before between ∧
      between.switch.available_rx_buffer_pool.pool = [] ∧
      StepPath (Step T (fun _ => T.dst_addr) 300) between after s ∧ routedTo n (before ++ after) = [groupFrame] ∧
      (sentTo n (before ++ after)).length = 1 ∧ s.switch.available_rx_buffer_pool.pool ≠ [] ∧
      GivenBack T [n] (PacketBuffer.fresh 0 3) s := by
  intro n T
  obtain ⟨events, s, hrun, hrouted, hquiet, hreader, hsent, hdatagram, before, between, after, rfl, hbefore, hnone,
    hafter⟩ := exists_sent_groupFrame
  have hne := List.cons_ne_nil n []
  obtain ⟨hback, hfree⟩ := transmit_side_gives_back (T := T)
    (fun _ => (StreamCompressor.literals_lossless _ _).toCompressBounded) (List.nodup_singleton n) hne hrun
    (fun m hm => List.mem_singleton.mp hm ▸ ⟨hquiet, hsent⟩)
    ((Owned.of_path (List.nodup_singleton n) hne hrun).outside hreader)
  have hlen := congrArg List.length hdatagram
  rw [List.length_map] at hlen
  rw [hreader] at hfree
  have hfree : 3 ≤ s.switch.available_rx_buffer_pool.pool.length + 0 + 2 * 1 := hfree
  exact ⟨before, after, between, s, hbefore, hnone, hafter, hrouted, hlen,
    List.ne_nil_of_length_pos (by omega), hback⟩

/-- **No thread throws, and none waits while a buffer is free**, whatever frames are read and however the
threads are interleaved; but a frame for a local station stops the reader. -/
theorem transmit_side_goes_on (hlib : Bounded T) (hnodup : remote_nodes.Nodup) (hne : remote_nodes ≠ [])
    (hrun : StepPath (Step T addr expire_time) (.start remote_nodes available) events s)
    (hfree : s.switch.available_rx_buffer_pool.pool ≠ []) : GoesOn T addr expire_time s := by
  have howned := Owned.of_path hnodup hne hrun
  have hlearns := learns_of_path hnodup hne hrun
  have hgoing : ∀ n, (s.encoder n).Going :=
    hrun.invariant (I := fun s => ∀ n, (s.encoder n).Going) (fun _ _ _ h hstep => going_step h hstep) fun _ => trivial
  refine ⟨fun hreader => ?_, fun buffer frame => exists_read hlearns, fun buffer hreader => ?_,
    fun buffer => exists_forward, howned.exists_branch hnodup hne hfree,
    fun n hn => exists_encoderStep hlib hn (Through.of_path hnodup hne hrun n) hgoing hfree, fun n hbuffers => ?_⟩
  · obtain ⟨b, pool, hpool⟩ := List.exists_cons_of_ne_nil hfree
    have hpop : s.switch.available_rx_buffer_pool.pop_wait = .ok (b, ⟨pool⟩) := by
      rw [BufferPool.pop_wait, hpool]
    exact ⟨b, _, .pop hreader hpop, rfl⟩
  · unfold PacketSwitch.Learns at hlearns
    rw [hreader] at hlearns
    have hadded : Learning.Step expire_time s.switch.learning (.sighted buffer.src_mac none 0) _ := .added hlearns
    exact ⟨_, .learn (.added hreader hadded), rfl⟩
  · obtain ⟨datagram, rest, hcons⟩ := List.exists_cons_of_ne_nil hbuffers
    exact ⟨datagram, _, .send hcons⟩

theorem transmit_side_goes_on_groupFrame :
    let n := mappedAddr #v[192, 0, 2, 1]
    let T := Tunnel.smallestLZ4 (.inet 58023 #v[192, 0, 2, 1])
    ∃ (events : List (TransmitEvent T.B)) (s : TransmitSide (List (List UInt8)) T.B),
      routedTo n events = [groupFrame] ∧ s.Quiet n ∧ GoesOn T (fun _ => T.dst_addr) 300 s := by
  intro n T
  obtain ⟨events, s, hrun, hrouted, hquiet, hreader, hsent, -⟩ := exists_sent_groupFrame
  have hlib : Bounded T := fun _ => (StreamCompressor.literals_lossless _ _).toCompressBounded
  have hfree := length_le_of_quiet (T := T) hlib hrun hquiet hsent hreader
  exact ⟨events, s, hrouted, hquiet, transmit_side_goes_on (T := T) hlib (List.nodup_singleton n)
    (List.cons_ne_nil _ _) hrun (List.ne_nil_of_length_pos (by change 3 ≤ _ at hfree; omega))⟩

end TransmitSide
end SuperEthd
