import SuperEthd.Demultiplexing
import SuperEthd.Lib.PointUpdate
import SuperEthd.TapWriter

/-! # The receiving half of the switch

The socket reader, the decoder threads of all nodes (`RemoteNode::_tunnel_decoder_handler`) and the TAP
writer, as one transition system over the buffers of `available_tx_buffer_pool`, which every one of
them takes from or gives back to.

* The reader is that of `SocketReader`, whose buffers are known by their addresses.  What a decoder gets
  is the buffer with what is at its address (`bufferAt`), and what it leaves is there from then on
  (`exchange`).
* A decoder thread takes one option at a time, as in `Threads`; its constructor takes its two buffers one
  after the other.  Between two of its steps the others do theirs, so before each step its pools are set
  to what is in them then (`lend`).
* The TAP writer takes what is in its pool, is through with one frame after the other, and gives all of
  them back.  The maintenance thread and the TAP reader are there with what they do to the database
  (`Step.learning`).

A thread that sees the stop flag does nothing from then on, like one whose turn never comes.  `pop_wait`
is taken as blocking until the pool has a buffer, so at an empty pool a thread that wants one has no step;
and `wait` may return at any time with what there is.  What a stolen or a spurious wake-up does is left to
`BufferMonitor`.  The history of a decoder's LZ4 stream is its own here, while LZ4 looks back at buffers
that others use by then; when that makes no difference is said in `ReceiveHistory`. -/
namespace SuperEthd
open PacketDecoder

variable {H : Type} {B : Nat}

/-- The datagram in the hands of `decode`. -/
def Phase.buffers : Phase B → List (PacketBuffer B)
  | .idle => []
  | .options packetBuffer _ _ => [packetBuffer]
  | .refill packetBuffer _ _ => [packetBuffer]

/-- The datagram that `decode` is called with in a step. -/
def Event.datagrams : Event B → List (PacketBuffer B)
  | .arrives packetBuffer => [packetBuffer]
  | _ => []

/-- `RemoteNode::_tunnel_decoder_handler`. -/
inductive DecoderThread (H : Type) (B : Nat)
  /-- before the constructor of its decoder -/
  | starting
  /-- in the constructor, which has the `dcomp_buffer` and is to take the `tx_buffer` -/
  | constructing (dcomp_buffer : PacketBuffer B)
  /-- the decoder, where its thread is in `decode`, and the buffers of the batch that are still to be
  decoded -/
  | running (decoder : PacketDecoder H B) (phase : Phase B) (buffers : List (PacketBuffer B))

/-- The socket reader, the decoder threads, and the TAP writer with the buffers of its round: those still
to be handled, and those that were.  What the fields of a decoder say of its two pools is out of
date between its steps. -/
structure ReceiveSide (H : Type) (B : Nat) where
  reader : SocketReader B
  decoder : In6Addr → DecoderThread H B
  tap_write_pool : BufferPool (PacketBuffer B) B
  tap_writer : TapWriter
  buffers : List (PacketBuffer B)
  handled : List (PacketBuffer B)

/-- What a step of a run does that the others can see. -/
inductive ReceiveEvent (B : Nat)
  | reader (event : ReaderEvent)
  /-- the decoder of the node was called with these datagrams, at most one, and pushed these frames -/
  | decoded (n : In6Addr) (datagrams frames : List (PacketBuffer B))
  /-- the TAP writer was through with a frame -/
  | handled (frame : PacketBuffer B)
  | silent

namespace SocketReader

/-- The buffer at an address. -/
def bufferAt (r : SocketReader B) (a : Nat) : PacketBuffer B := { r.heap a with id := a }

/-- The buffers of the available pool. -/
def free (r : SocketReader B) : List (PacketBuffer B) := r.available_tx_buffer_pool.pool.map r.bufferAt

/-- These are the free buffers from now on; the other threads have what was free before and is not
now. -/
def exchange (r : SocketReader B) (available : List (PacketBuffer B)) : SocketReader B :=
  { r with
    heap := fun a => ((available.find? fun b => b.id == a).getD (r.heap a))
    available_tx_buffer_pool := ⟨available.map PacketBuffer.id⟩
    elsewhere := (r.elsewhere ++ r.available_tx_buffer_pool.pool).diff (available.map PacketBuffer.id) }

/-- The decoder thread of the node takes all that is in its pool. -/
def takeBatch (r : SocketReader B) (n : In6Addr) : SocketReader B :=
  { r with
    decoder_pool := Function.update r.decoder_pool n ⟨[]⟩
    elsewhere := r.elsewhere ++ (r.decoder_pool n).pool }

/-- What is in the pool of the node. -/
def batch (r : SocketReader B) (n : In6Addr) : List (PacketBuffer B) := (r.decoder_pool n).pool.map r.bufferAt

end SocketReader

namespace ReceiveSide
variable (rcfg : ReaderConfig) (cfg : DecoderConfig H)

/-- Before the threads run. -/
def start (heap : Nat → PacketBuffer B) (available : List Nat) (tap_writer : TapWriter) : ReceiveSide H B where
  reader := .start heap available
  decoder := fun _ => .starting
  tap_write_pool := ⟨[]⟩
  tap_writer := tap_writer
  buffers := []
  handled := []

/-- The decoder with its pools as they are. -/
def lend (s : ReceiveSide H B) (d : PacketDecoder H B) : PacketDecoder H B :=
  { d with available_buffer_pool := ⟨s.reader.free⟩, tx_buffer_pool := s.tap_write_pool }

/-- The thread of the node goes on, and leaves these buffers in its two pools. -/
def hand (s : ReceiveSide H B) (n : In6Addr) (thread : DecoderThread H B) (available : List (PacketBuffer B))
    (tap_write_pool : BufferPool (PacketBuffer B) B) : ReceiveSide H B :=
  { s with
    reader := s.reader.exchange available
    decoder := Function.update s.decoder n thread
    tap_write_pool := tap_write_pool }

/-- Behind a step of the decoder of the node. -/
def settle (s : ReceiveSide H B) (n : In6Addr) (d : PacketDecoder H B) (phase : Phase B)
    (buffers : List (PacketBuffer B)) : ReceiveSide H B :=
  s.hand n (.running d phase buffers) d.available_buffer_pool.pool d.tx_buffer_pool

/-- **The threads.** -/
inductive Step : ReceiveSide H B → ReceiveEvent B → ReceiveSide H B → Prop
  /-- the reader goes on; every step of its own takes it somewhere else -/
  | reader {s : ReceiveSide H B} {event : ReaderEvent} {reader : SocketReader B}
      (turn : SocketReader.Step rcfg s.reader event reader) (own : reader.phase ≠ s.reader.phase) :
      Step s (.reader event) { s with reader := reader }
  | construct {s : ReceiveSide H B} {n : In6Addr} {dcomp_buffer : PacketBuffer B}
      {pool : BufferPool (PacketBuffer B) B} (node : n ∈ rcfg.remote_nodes) (thread : s.decoder n = .starting)
      (pop : BufferPool.pop_wait ⟨s.reader.free⟩ = .ok (dcomp_buffer, pool)) :
      Step s .silent (s.hand n (.constructing dcomp_buffer) pool.pool s.tap_write_pool)
  | constructed {s : ReceiveSide H B} {n : In6Addr} {dcomp_buffer : PacketBuffer B} {d : PacketDecoder H B}
      (thread : s.decoder n = .constructing dcomp_buffer)
      (run : (_getTxBuffer : DecoderCall H B Unit).run
        { init cfg s.tap_write_pool ⟨s.reader.free⟩ with dcomp_buffer := some dcomp_buffer } = .ok () d) :
      Step s .silent (s.settle n d .idle [])
  /-- `wait` returns, notified or not, with what there is -/
  | wait {s : ReceiveSide H B} {n : In6Addr} {d : PacketDecoder H B}
      (thread : s.decoder n = .running d .idle []) :
      Step s .silent { s with
        reader := s.reader.takeBatch n
        decoder := Function.update s.decoder n (.running d .idle (s.reader.batch n)) }
  | decode {s : ReceiveSide H B} {n : In6Addr} {d : PacketDecoder H B} {phase : Phase B}
      {buffers frames : List (PacketBuffer B)} {event : Event B} {t : Threads H B}
      (thread : s.decoder n = .running d phase buffers)
      (turn : Threads.Step cfg ⟨s.lend d, phase, buffers⟩ event t) (own : event ≠ .others)
      (first : buffers = event.datagrams ++ t.others)
      (pushed : t.decoder.tx_buffer_pool.pool = s.tap_write_pool.pool ++ frames) :
      Step s (.decoded n event.datagrams frames) (s.settle n t.decoder t.phase t.others)
  | tapWait {s : ReceiveSide H B} (buffers : s.buffers = []) (handled : s.handled = []) :
      Step s .silent { s with tap_write_pool := ⟨[]⟩, buffers := s.tap_write_pool.pool }
  | tapHandle {s : ReceiveSide H B} {buffer : PacketBuffer B} {rest : List (PacketBuffer B)} {online : Bool}
      {now : Int} (buffers : s.buffers = buffer :: rest) :
      Step s (.handled buffer) { s with
        tap_writer := s.tap_writer.handle online now buffer
        buffers := rest
        handled := s.handled ++ [buffer] }
  | tapGiveBack {s : ReceiveSide H B} (buffers : s.buffers = []) :
      Step s .silent { s with reader := s.reader.exchange (s.reader.free ++ s.handled), handled := [] }
  /-- the TAP reader learns, and the maintenance thread expires -/
  | learning {s : ReceiveSide H B} {fdb : FDB In6Addr} :
      Step s .silent { s with tap_writer := { s.tap_writer with fdb := fdb } }

end ReceiveSide

/-! ## Who has which buffer -/

/-- The buffers a decoder thread holds. -/
def DecoderThread.held : DecoderThread H B → Multiset Nat
  | .starting => 0
  | .constructing dcomp_buffer => {dcomp_buffer.id}
  | .running d phase buffers =>
    ids d.tx_buffer.toList + ids d.dcomp_buffer.toList + ids d.inflight_buffers + ids phase.buffers +
      ids buffers

/-- The decoder has the buffers it must have where its thread is. -/
def Phase.Equips (d : PacketDecoder H B) : Phase B → Prop
  | .refill _ _ _ => d.tx_buffer = none ∧ d.dcomp_buffer.isSome
  | _ => d.tx_buffer.isSome ∧ d.dcomp_buffer.isSome

/-- Likewise for a thread whose decoder was made. -/
def DecoderThread.Equipped : DecoderThread H B → Prop
  | .running d phase _ => phase.Equips d
  | _ => True

namespace Threads
variable {cfg : DecoderConfig H} {t t' : Threads H B} {event : Event B}

/-- The buffers of the decoder, of its pools, and of the other threads. -/
def held (t : Threads H B) : Multiset Nat := t.decoder.held + ids t.phase.buffers + ids t.others

/-- The datagram is among the buffers of the other threads before `decode` has it. -/
theorem ids_insert (l r : List (PacketBuffer B)) (b : PacketBuffer B) :
    ids (l ++ b :: r) = {b.id} + ids (l ++ r) := by
  simp only [ids_append, ids_cons]
  abel

/-- **A step of any thread** moves buffers, and loses none. -/
theorem held_step (h : t.phase.Equips t.decoder) (hstep : Step cfg t event t') :
    t'.phase.Equips t'.decoder ∧ t'.held = t.held := by
  cases hstep with
  | @refused d d' l r packetBuffer hrun =>
    have howns : Owns d.held d := ⟨rfl, h.1, h.2⟩
    obtain ⟨tx, htx⟩ := Option.isSome_iff_exists.mp h.1
    have hd' : Owns (d.held + {packetBuffer.id}) d' := by
      cases (decodeHeader_meets (E := fun _ _ => True) htx).ok rfl hrun with
      | short =>
        refine ⟨?_, by rw [Option.isSome_map]; exact h.1, h.2⟩
        simp only [PacketDecoder.held, ids_append, ids_cons, ids_nil, ids_map_clear]
        abel
      | refused _ hd1 =>
        rcases hd1 with rfl | rfl
        · exact howns.refusing
        · exact (howns.arrived _).refusing
    refine ⟨⟨hd'.tx_buffer, hd'.dcomp_buffer⟩, ?_⟩
    simp only [held, Phase.buffers, ids_nil, hd'.held, ids_insert]
    abel
  | @opened d d' l r packetBuffer pos hrun =>
    have howns : Owns d.held d := ⟨rfl, h.1, h.2⟩
    obtain ⟨tx, htx⟩ := Option.isSome_iff_exists.mp h.1
    have hd' : Owns d.held d' := by
      cases (decodeHeader_meets (E := fun _ _ => True) htx).ok rfl hrun with
      | passed => exact howns.arrived _
    refine ⟨⟨hd'.tx_buffer, hd'.dcomp_buffer⟩, ?_⟩
    simp only [held, Phase.buffers, ids_nil, ids_cons, hd'.held, ids_insert]
    abel
  | @optionRefused d d' packetBuffer pos flag others hpos hrun =>
    have howns : Owns d.held d := ⟨rfl, h.1, h.2⟩
    obtain ⟨tx, dc, htx, hdc⟩ := howns.exists_buffers
    have hd' : Owns (d.held + {packetBuffer.id}) d' :=
      howns.outcome htx ((takeOption_meets htx hdc).ok rfl hrun)
    refine ⟨⟨hd'.tx_buffer, hd'.dcomp_buffer⟩, ?_⟩
    simp only [held, Phase.buffers, ids_nil, ids_cons, hd'.held]
    abel
  | @option d d' packetBuffer pos flag pos' flag' others hpos hrun =>
    have howns : Owns d.held d := ⟨rfl, h.1, h.2⟩
    obtain ⟨tx, dc, htx, hdc⟩ := howns.exists_buffers
    have hd' : Owns d.held d' := howns.outcome htx ((takeOption_meets htx hdc).ok rfl hrun)
    refine ⟨⟨hd'.tx_buffer, hd'.dcomp_buffer⟩, ?_⟩
    simp only [held, Phase.buffers, hd'.held]
  | @delivered d d' packetBuffer pos flag assembled pos' others hpos hrun =>
    have howns : Owns d.held d := ⟨rfl, h.1, h.2⟩
    obtain ⟨tx, dc, htx, hdc⟩ := howns.exists_buffers
    have hd' : OwnsPushed d.held d' := howns.outcome htx ((takeOption_meets htx hdc).ok rfl hrun)
    refine ⟨⟨hd'.tx_buffer, hd'.dcomp_buffer⟩, ?_⟩
    simp only [held, Phase.buffers, hd'.held]
  | @refilled d d' packetBuffer assembled pos others hrun =>
    have hpushed : OwnsPushed d.held d := ⟨rfl, h.1, h.2⟩
    have hd' : Owns d.held d' := (hpushed.refill assembled).ok rfl hrun
    refine ⟨⟨hd'.tx_buffer, hd'.dcomp_buffer⟩, ?_⟩
    simp only [held, Phase.buffers, hd'.held]
  | @finished d d' packetBuffer pos flag others hpos hrun =>
    have howns : Owns d.held d := ⟨rfl, h.1, h.2⟩
    have hd' : Owns (d.held + {packetBuffer.id}) d' := by
      rw [finish_run] at hrun
      obtain ⟨-, rfl⟩ := EStateM.Result.ok.inj hrun
      cases flag with
      | true => exact (howns.pushInflight _).flushed
      | false => exact howns.pushInflight _
    refine ⟨⟨hd'.tx_buffer, hd'.dcomp_buffer⟩, ?_⟩
    simp only [held, Phase.buffers, ids_nil, ids_cons, hd'.held]
    abel
  | @take d phase others b rest hpool =>
    refine ⟨?_, ?_⟩
    · cases phase <;> exact h
    · simp only [held, PacketDecoder.held, hpool, ids_append, ids_cons, ids_nil]
      abel
  | @giveBack d phase l r b =>
    refine ⟨?_, ?_⟩
    · cases phase <;> exact h
    · simp only [held, PacketDecoder.held, ids_append, ids_cons, ids_nil]
      abel
  | @pop d phase others b rest hpool =>
    refine ⟨?_, ?_⟩
    · cases phase <;> exact h
    · simp only [held, PacketDecoder.held, hpool, ids_append, ids_cons, ids_nil]
      abel
  | @overwrite d phase l r b b' hid =>
    refine ⟨h, ?_⟩
    simp only [held, ids_insert, hid]

end Threads

namespace SocketReader
variable {rcfg : ReaderConfig} {r r' : SocketReader B} {event : ReaderEvent} {arrived : List UdpDatagram}
  {pushed : In6Addr → List UdpDatagram}

/-- A slot that is to be filled has no buffer, and only what is from a node is queued. -/
structure Tidy (rcfg : ReaderConfig) (r : SocketReader B) : Prop where
  vacant : match r.phase with
    | .filling i => ∀ j, i ≤ j → (r.slots j).buffer = none
    | .replenishing i _ => (r.slots i).buffer = none
    | _ => True
  known : ∀ n ∉ rcfg.remote_nodes, r.received_buffers.queue n = []

@[simp] theorem ids_free (r : SocketReader B) : ids r.free = ↑r.available_tx_buffer_pool.pool := by
  rw [ids, free, List.map_map]
  exact congrArg _ (List.map_id _)

@[simp] theorem ids_batch (r : SocketReader B) (n : In6Addr) :
    ids (r.batch n) = ↑(r.decoder_pool n).pool := by
  rw [ids, batch, List.map_map]
  exact congrArg _ (List.map_id _)

/-- A free buffer goes to a slot that has none. -/
theorem owned_filled {pool : BufferPool Nat B} {slot : ReceiveSlot} {i a : Nat} (phase : ReaderPhase)
    (hi : i < SETH_MAX_RECVMM_MESSAGES) (hpop : r.available_tx_buffer_pool.pop_wait = .ok (a, pool))
    (hvacant : (r.slots i).buffer = none) (hslot : slot.buffer = some a) :
    owned rcfg { r with
      available_tx_buffer_pool := pool
      slots := Function.update r.slots i slot
      phase := phase } = owned rcfg r := by
  have hpool : (r.available_tx_buffer_pool.pool : Multiset Nat) = {a} + ↑pool.pool := by
    rw [BufferPool.pool_of_pop_wait hpop]
    rfl
  have hupdate := slotBuffers_update r.slots slot hi
  rw [hslot, hvacant, Option.toList_some, Option.toList_none, Multiset.coe_singleton, Multiset.coe_nil,
    add_zero] at hupdate
  simp only [owned, shared, hpool, hupdate]
  abel

/-- The queue of a node goes to its pool. -/
theorem owned_push {n : In6Addr} (phase : ReaderPhase) (hknown : n ∉ rcfg.remote_nodes →
    r.received_buffers.queue n = []) :
    owned rcfg { r with
      decoder_pool := Function.update r.decoder_pool n
        ⟨(r.decoder_pool n).pool ++ r.received_buffers.queue n⟩
      received_buffers := r.received_buffers.clear n
      phase := phase } = owned rcfg r := by
  have hall := r.received_buffers.all_clear n
  by_cases hn : n ∈ rcfg.remote_nodes
  · have hsum := PointUpdate.sum_add (fun p : BufferPool Nat B => (p.pool : Multiset Nat)) r.decoder_pool hn
      ⟨(r.decoder_pool n).pool ++ r.received_buffers.queue n⟩
    rw [← Multiset.coe_add, add_comm (↑(r.decoder_pool n).pool : Multiset Nat), ← add_assoc] at hsum
    have hsum := add_right_cancel hsum
    simp only [owned, shared, hsum, ← hall]
    abel
  · rw [hknown hn, Multiset.coe_nil, add_zero] at hall
    have hsum := PointUpdate.sum_of_notMem (fun p : BufferPool Nat B => (p.pool : Multiset Nat))
      r.decoder_pool hn ⟨(r.decoder_pool n).pool ++ r.received_buffers.queue n⟩
    simp only [owned, shared, hsum, hall]

variable (rcfg) in
/-- The kernel moves no buffer. -/
theorem recvmmsg_sameOwners (r : SocketReader B) (i : Nat) (batch : List UdpDatagram) :
    SameOwners r (recvmmsg rcfg r i batch) := by
  induction batch generalizing r i with
  | nil => exact ⟨fun _ => rfl, rfl, rfl, rfl, rfl⟩
  | cons p batch ih => exact (fill_sameOwners rcfg r i p).trans (ih _ _)

/-- Before the threads run, all buffers are free. -/
theorem owned_start {heap : Nat → PacketBuffer B} {available : List Nat} :
    owned rcfg (start heap available : SocketReader B) = ↑available := by
  have hslots : slotBuffers (SocketReader.start heap available : SocketReader B).slots = 0 :=
    Finset.sum_eq_zero fun _ _ => rfl
  have hpools : ∑ n ∈ rcfg.remote_nodes,
      (((SocketReader.start heap available : SocketReader B).decoder_pool n).pool : Multiset Nat) = 0 :=
    Finset.sum_eq_zero fun _ _ => rfl
  rw [owned, shared, hslots, hpools]
  show 0 + 0 + (↑available + 0 + 0) = (↑available : Multiset Nat)
  abel

/-- A buffer is queued for a node that is known. -/
theorem known_push_back {received_buffers : ReceivedBuffers} {m : In6Addr} {a : Nat}
    (h : ∀ n ∉ rcfg.remote_nodes, received_buffers.queue n = []) (hm : m ∈ rcfg.remote_nodes) :
    ∀ n ∉ rcfg.remote_nodes, (received_buffers.push_back m a).queue n = [] := by
  intro n hn
  rw [ReceivedBuffers.queue_push_back, h n hn, if_neg fun heq : m = n => hn (heq ▸ hm)]
  rfl

/-- **The reader moves buffers**, and loses none; a node gets what is pushed to it. -/
structure Moves (rcfg : ReaderConfig) (r : SocketReader B) (event : ReaderEvent) (r' : SocketReader B) :
    Prop where
  tidy : Tidy rcfg r'
  owned : owned rcfg r' = owned rcfg r
  elsewhere : r'.elsewhere = r.elsewhere
  batch : ∀ n ∈ rcfg.remote_nodes, (r'.batch n).map PacketBuffer.datagram =
    (r.batch n).map PacketBuffer.datagram ++ pushedTo n [event]

/-- The kernel writes to the buffers in the slots. -/
theorem recvmmsg_heap {batch : List UdpDatagram} {i a : Nat} (hready : AllReady rcfg r)
    (hnodup : (owned rcfg r).Nodup) (hcount : i + batch.length ≤ SETH_MAX_RECVMM_MESSAGES)
    (hfamily : ∀ p ∈ batch, p.source.size = rcfg.name_size) (ha : a ∈ shared rcfg r) :
    (recvmmsg rcfg r i batch).heap a = r.heap a := by
  induction batch generalizing r i with
  | nil => rfl
  | cons p batch ih =>
    rw [List.length_cons] at hcount
    obtain ⟨b, hb⟩ := hready i (by omega)
    have hsame := fill_sameOwners rcfg r i p
    have hready' : AllReady rcfg (r.fill rcfg i p) := by
      intro j hj
      obtain ⟨c, hc⟩ := hready j hj
      exact ⟨c, hc.fill (hfamily p List.mem_cons_self)⟩
    have hshared : a ∈ shared rcfg (r.fill rcfg i p) := ha
    have hrest := ih (i := i + 1) hready' (hsame.owned_eq ▸ hnodup) (by omega)
      (fun q hq => hfamily q (List.mem_cons_of_mem _ hq)) hshared
    refine hrest.trans (fill_heap hb ?_)
    rintro rfl
    exact slot_not_shared hnodup (by omega) hb.buffer ha

/-- What the buffers of a batch hold. -/
theorem datagrams_batch (r : SocketReader B) (n : In6Addr) : (r.batch n).map PacketBuffer.datagram =
    (r.decoder_pool n).pool.map fun a => (r.heap a).datagram :=
  List.map_map ..

/-- What is in the pool of a node was not touched. -/
theorem batch_congr (hpool : r'.decoder_pool = r.decoder_pool)
    (hheap : ∀ a ∈ shared rcfg r, r'.heap a = r.heap a) : ∀ n ∈ rcfg.remote_nodes,
    (r'.batch n).map PacketBuffer.datagram = (r.batch n).map PacketBuffer.datagram ++ [] := by
  intro n hn
  rw [List.append_nil, datagrams_batch, datagrams_batch, hpool]
  apply List.map_congr_left
  intro a ha
  rw [hheap a]
  exact Multiset.mem_add.mpr (Or.inl (Multiset.mem_add.mpr (Or.inr (Multiset.mem_sum.mpr ⟨n, hn, ha⟩))))

/-- The loop over the packets received. -/
theorem Tidy.handle {i num_received : Nat} {queued : Bool} (h : Tidy rcfg r) (hinv : Inv rcfg arrived pushed r)
    (phase : r.phase = .handling i num_received) (more : i < num_received)
    (run : (handle rcfg i).run r = .ok queued r') :
    Moves rcfg r .silent { r' with
      phase := if queued then .replenishing i num_received else .handling (i + 1) num_received } := by
  obtain ⟨hnodup, hphase⟩ := hinv
  rw [phase] at hphase
  obtain ⟨-, hcount, hready, before, batch, -, hlen, -, hholds⟩ := hphase
  obtain ⟨a, ha⟩ := hready i (by omega)
  have hne : ∀ b ∈ shared rcfg r, b ≠ a := by
    rintro b hb rfl
    exact slot_not_shared hnodup (by omega) ha.buffer hb
  rcases handle_run rcfg ha.buffer (hholds i (hlen ▸ more) le_rfl) with
    ⟨n, b, hgoes, -, hrun⟩ | ⟨-, heap, hheap, hrun⟩
  · rw [hrun] at run
    obtain ⟨rfl, rfl⟩ := EStateM.Result.ok.inj run
    refine ⟨⟨?_, known_push_back h.known hgoes.2.1⟩, owned_queued _ n _ (by omega) ha.buffer rfl, rfl,
      batch_congr rfl fun c hc => Function.update_of_ne (hne c hc) _ _⟩
    show (Function.update r.slots i { r.slots i with buffer := none } i).buffer = none
    rw [Function.update_self]
  · rw [hrun] at run
    obtain ⟨rfl, rfl⟩ := EStateM.Result.ok.inj run
    exact ⟨⟨True.intro, h.known⟩, rfl, rfl, batch_congr rfl fun c hc => hheap c (hne c hc)⟩

/-- **A step of the reader.** -/
theorem Tidy.step (h : Tidy rcfg r) (hinv : Inv rcfg arrived pushed r) (hstep : Step rcfg r event r')
    (hown : r'.phase ≠ r.phase) : Moves rcfg r event r' := by
  have hvacant := h.vacant
  have hkept : ∀ {r' : SocketReader B}, r'.decoder_pool = r.decoder_pool → r'.heap = r.heap →
      ∀ n ∈ rcfg.remote_nodes, (r'.batch n).map PacketBuffer.datagram =
        (r.batch n).map PacketBuffer.datagram ++ [] :=
    fun hpool hheap => batch_congr hpool fun a _ => congrFun hheap a
  cases hstep with
  | @filled i a pool phase more pop =>
    rw [phase] at hvacant
    refine ⟨⟨fun j hj => ?_, h.known⟩, owned_filled _ more pop (hvacant i le_rfl) rfl, rfl,
      hkept rfl rfl⟩
    show (Function.update r.slots i _ j).buffer = none
    rw [Function.update_of_ne (by omega)]
    exact hvacant j (by omega)
  | ready => exact ⟨⟨True.intro, h.known⟩, rfl, rfl, hkept rfl rfl⟩
  | stopped => exact ⟨⟨True.intro, h.known⟩, rfl, rfl, hkept rfl rfl⟩
  | @received batch phase count fits family =>
    have hsame := recvmmsg_sameOwners rcfg r 0 batch
    have hready : AllReady rcfg r := by
      have hphase := hinv.phase
      rw [phase] at hphase
      exact hphase.1
    refine ⟨⟨True.intro, fun n hn => ?_⟩, hsame.owned_eq, hsame.elsewhere, batch_congr hsame.decoder_pool
      fun a ha => recvmmsg_heap hready hinv.nodup (by omega) family ha⟩
    show (recvmmsg rcfg r 0 batch).received_buffers.queue n = []
    rw [hsame.received_buffers, h.known n hn]
  | dropped phase more run => exact h.handle hinv phase more run
  | queued phase more run => exact h.handle hinv phase more run
  | @replenished i num_received a pool phase pop =>
    have hi : i < SETH_MAX_RECVMM_MESSAGES := by
      have hphase := hinv.phase
      rw [phase] at hphase
      exact hphase.1.trans_le hphase.2.1
    rw [phase] at hvacant
    exact ⟨⟨True.intro, h.known⟩, owned_filled _ hi pop hvacant rfl, rfl, hkept rfl rfl⟩
  | handled => exact ⟨⟨True.intro, h.known⟩, rfl, rfl, hkept rfl rfl⟩
  | @pushed n node_keys pool phase push =>
    obtain rfl := BufferPool.eq_of_pushBatch push
    refine ⟨⟨True.intro, fun m hm => ?_⟩, owned_push _ (h.known n), rfl, fun m _ => ?_⟩
    · show (r.received_buffers.clear n).queue m = []
      rw [ReceivedBuffers.queue_clear, h.known m hm, ite_self]
    · rw [datagrams_batch, datagrams_batch, pushedTo_pushed]
      show (Function.update r.decoder_pool n _ m).pool.map _ = _
      by_cases hm : n = m
      · subst hm
        rw [Function.update_self, if_pos rfl, List.map_append]
      · rw [Function.update_of_ne (Ne.symm hm), if_neg hm, List.append_nil]
  | again => exact ⟨⟨True.intro, h.known⟩, rfl, rfl, hkept rfl rfl⟩
  | others slots received_buffers phase => exact absurd phase hown

/-! ## The free buffers change hands -/

section Exchange
variable (r) {available : List (PacketBuffer B)}

theorem shared_eq : shared rcfg r = ↑r.elsewhere + ↑r.available_tx_buffer_pool.pool +
    ∑ n ∈ rcfg.remote_nodes, ↑(r.decoder_pool n).pool := by
  rw [shared]
  abel

theorem elsewhere_exchange : ((r.exchange available).elsewhere : Multiset Nat) =
    ↑r.elsewhere + ↑r.available_tx_buffer_pool.pool - ids available := by
  rw [Multiset.coe_add, ids, Multiset.coe_sub]
  rfl

/-- No buffer appears from nowhere. -/
theorem shared_exchange (h : ids available ≤ ↑r.elsewhere + ↑r.available_tx_buffer_pool.pool) :
    shared rcfg (r.exchange available) = shared rcfg r := by
  have helsewhere : ((r.exchange available).elsewhere : Multiset Nat) = _ := elsewhere_exchange r
  have hback := tsub_add_cancel_of_le h
  rw [← helsewhere] at hback
  show ids available + ∑ n ∈ rcfg.remote_nodes, ↑(r.decoder_pool n).pool +
    ((r.exchange available).elsewhere : Multiset Nat) = shared rcfg r
  calc ids available + ∑ n ∈ rcfg.remote_nodes, ↑(r.decoder_pool n).pool +
        ((r.exchange available).elsewhere : Multiset Nat)
      = ↑(r.exchange available).elsewhere + ids available +
        ∑ n ∈ rcfg.remote_nodes, ↑(r.decoder_pool n).pool := by abel
    _ = shared rcfg r := by rw [hback, shared_eq]

/-- What is not free keeps its contents. -/
theorem heap_exchange {a : Nat} (h : a ∉ ids available) : (r.exchange available).heap a = r.heap a := by
  show ((available.find? fun b => b.id == a).getD (r.heap a)) = r.heap a
  rw [List.find?_eq_none.mpr, Option.getD_none]
  intro b hb heq
  apply h
  rw [← beq_iff_eq.mp heq]
  exact Multiset.mem_coe.mpr (List.mem_map_of_mem hb)

/-- The other threads are done with the step. -/
theorem Inv.exchange {r : SocketReader B} (h : Inv rcfg arrived pushed r)
    (hle : ids available ≤ ↑r.elsewhere + ↑r.available_tx_buffer_pool.pool) :
    Inv rcfg arrived pushed (r.exchange available) := by
  refine h.others rfl rfl rfl (shared_exchange r hle).le fun a ha => heap_exchange r fun hmem => ha ?_
  rw [shared_eq]
  exact Multiset.mem_add.mpr (Or.inl (Multiset.mem_of_le hle hmem))

/-- What a node has in its pool keeps its contents. -/
theorem batch_exchange {n : In6Addr} (hnodup : (owned rcfg r).Nodup) (hn : n ∈ rcfg.remote_nodes)
    (hle : ids available ≤ ↑r.elsewhere + ↑r.available_tx_buffer_pool.pool) :
    (r.exchange available).batch n = r.batch n := by
  apply List.map_congr_left
  intro a ha
  have hne : a ∉ ids available := by
    intro hmem
    have hshared := (Multiset.nodup_add.mp hnodup).2.1
    rw [shared_eq] at hshared
    refine Multiset.disjoint_left.mp (Multiset.nodup_add.mp hshared).2.2 (Multiset.mem_of_le hle hmem) ?_
    exact Multiset.mem_sum.mpr ⟨n, hn, ha⟩
  rw [bufferAt, heap_exchange r hne, bufferAt]

end Exchange

/-! ## A thread takes its batch -/

section TakeBatch
variable {n : In6Addr}

theorem shared_takeBatch (hn : n ∈ rcfg.remote_nodes) : shared rcfg (r.takeBatch n) = shared rcfg r := by
  have hsum := PointUpdate.sum_add (fun p : BufferPool Nat B => (p.pool : Multiset Nat)) r.decoder_pool hn ⟨[]⟩
  show ↑r.available_tx_buffer_pool.pool +
      ∑ m ∈ rcfg.remote_nodes, ((Function.update r.decoder_pool n ⟨[]⟩ m).pool : Multiset Nat) +
      ↑(r.elsewhere ++ (r.decoder_pool n).pool) = shared rcfg r
  rw [← Multiset.coe_add]
  simp only [Multiset.coe_nil, add_zero] at hsum
  rw [shared, ← hsum]
  abel

theorem Inv.takeBatch (h : Inv rcfg arrived pushed r) (hn : n ∈ rcfg.remote_nodes) :
    Inv rcfg arrived pushed (r.takeBatch n) :=
  h.others rfl rfl rfl (shared_takeBatch hn).le fun _ _ => rfl

end TakeBatch

end SocketReader

/-! ## The invariant -/

/-- What of a batch is still to be decoded. -/
def DecoderThread.remaining : DecoderThread H B → List (PacketBuffer B)
  | .running _ _ buffers => buffers
  | _ => []

/-- What the reader did. -/
def readerEvents (events : List (ReceiveEvent B)) : List ReaderEvent :=
  events.flatMap fun event => match event with
    | .reader event => [event]
    | _ => []

/-- The datagrams that the decoder of the node was called with. -/
def decodedBy (n : In6Addr) (events : List (ReceiveEvent B)) : List UdpDatagram :=
  events.flatMap fun event => match event with
    | .decoded m datagrams _ => if m = n then datagrams.map PacketBuffer.datagram else []
    | _ => []

/-- The frames that the decoders pushed. -/
def framesPushed (events : List (ReceiveEvent B)) : List (PacketBuffer B) :=
  events.flatMap fun event => match event with
    | .decoded _ _ frames => frames
    | _ => []

/-- The frames that the TAP writer was through with. -/
def framesHandled (events : List (ReceiveEvent B)) : List (PacketBuffer B) :=
  events.flatMap fun event => match event with
    | .handled frame => [frame]
    | _ => []

theorem readerEvents_concat (events : List (ReceiveEvent B)) (event : ReceiveEvent B) :
    readerEvents (events ++ [event]) = readerEvents events ++ readerEvents [event] :=
  List.flatMap_append

theorem readerEvents_reader (events : List (ReceiveEvent B)) (event : ReaderEvent) :
    readerEvents (events ++ [.reader event]) = readerEvents events ++ [event] :=
  readerEvents_concat events (.reader event)

theorem decodedBy_concat (n : In6Addr) (events : List (ReceiveEvent B)) (event : ReceiveEvent B) :
    decodedBy n (events ++ [event]) = decodedBy n events ++ decodedBy n [event] :=
  List.flatMap_append

theorem framesPushed_concat (events : List (ReceiveEvent B)) (event : ReceiveEvent B) :
    framesPushed (events ++ [event]) = framesPushed events ++ framesPushed [event] :=
  List.flatMap_append

theorem framesHandled_concat (events : List (ReceiveEvent B)) (event : ReceiveEvent B) :
    framesHandled (events ++ [event]) = framesHandled events ++ framesHandled [event] :=
  List.flatMap_append

theorem decodedBy_decoded (n m : In6Addr) (datagrams frames : List (PacketBuffer B)) :
    decodedBy m [.decoded n datagrams frames] =
      if n = m then datagrams.map PacketBuffer.datagram else [] :=
  List.append_nil _

namespace ReceiveSide
variable {rcfg : ReaderConfig} {cfg : DecoderConfig H} {s s' : ReceiveSide H B} {event : ReceiveEvent B}
  {events : List (ReceiveEvent B)} {n : In6Addr} {available : List Nat}

/-- What the decoder threads and the TAP writer have, with its pool. -/
def behind (rcfg : ReaderConfig) (s : ReceiveSide H B) : Multiset Nat :=
  ∑ n ∈ rcfg.remote_nodes, (s.decoder n).held + ids s.tap_write_pool.pool + ids s.buffers + ids s.handled

/-- **The buffers with the reader, in the pools, with the decoders and with the TAP writer.** -/
def places (rcfg : ReaderConfig) (s : ReceiveSide H B) : Multiset Nat :=
  SocketReader.slotBuffers s.reader.slots + s.reader.received_buffers.all +
    (↑s.reader.available_tx_buffer_pool.pool +
      ∑ n ∈ rcfg.remote_nodes, ↑(s.reader.decoder_pool n).pool + behind rcfg s)

/-- Every buffer is in one place, and the decoders have those they need. -/
structure Owned (rcfg : ReaderConfig) (available : List Nat) (s : ReceiveSide H B) : Prop where
  owned : SocketReader.owned rcfg s.reader = ↑available
  elsewhere : (s.reader.elsewhere : Multiset Nat) = behind rcfg s
  equipped : ∀ n, (s.decoder n).Equipped
  nodes : ∀ n ∉ rcfg.remote_nodes, s.decoder n = .starting

theorem Owned.mem_of_decoder (h : Owned rcfg available s) (hthread : s.decoder n ≠ .starting) :
    n ∈ rcfg.remote_nodes := by
  by_contra hn
  exact hthread (h.nodes n hn)

theorem Owned.places (h : Owned rcfg available s) : places rcfg s = ↑available := by
  rw [← h.owned, SocketReader.owned, SocketReader.shared, h.elsewhere]
  rfl

/-- **The invariant**: what went through the threads so far, in its order, and what is on its way. -/
structure Inv (rcfg : ReaderConfig) (available : List Nat) (events : List (ReceiveEvent B))
    (s : ReceiveSide H B) : Prop extends Owned rcfg available s where
  tidy : SocketReader.Tidy rcfg s.reader
  reader : SocketReader.Inv rcfg (arrivals (readerEvents events))
    (fun n => pushedTo n (readerEvents events)) s.reader
  decoded : ∀ n ∈ rcfg.remote_nodes, decodedBy n events ++
    ((s.decoder n).remaining ++ s.reader.batch n).map PacketBuffer.datagram =
      pushedTo n (readerEvents events)
  frames : framesPushed events = framesHandled events ++ s.buffers ++ s.tap_write_pool.pool

/-! The thread of a node is through with a step. -/

section Hand
variable {thread : DecoderThread H B} {free : List (PacketBuffer B)}
  {tap_write_pool : BufferPool (PacketBuffer B) B}

/-- The step moves buffers between the thread and its pools. -/
theorem behind_hand (hn : n ∈ rcfg.remote_nodes) (h : ids free + ids tap_write_pool.pool + thread.held =
      ids s.reader.free + ids s.tap_write_pool.pool + (s.decoder n).held) :
    behind rcfg (s.hand n thread free tap_write_pool) + ids free = behind rcfg s + ids s.reader.free := by
  have hsum := PointUpdate.sum_add DecoderThread.held s.decoder hn thread
  apply add_right_cancel (b := (s.decoder n).held)
  calc behind rcfg (s.hand n thread free tap_write_pool) + ids free + (s.decoder n).held
      = ∑ m ∈ rcfg.remote_nodes, (Function.update s.decoder n thread m).held + (s.decoder n).held +
        (ids free + ids tap_write_pool.pool) + ids s.buffers + ids s.handled := by
        simp only [behind, hand]
        abel
    _ = ∑ m ∈ rcfg.remote_nodes, (s.decoder m).held +
        (ids free + ids tap_write_pool.pool + thread.held) + ids s.buffers + ids s.handled := by
        rw [hsum]
        abel
    _ = behind rcfg s + ids s.reader.free + (s.decoder n).held := by
        rw [h, behind]
        abel

/-- What the thread leaves free was free or with the other threads. -/
theorem Owned.hand_le (h : Owned rcfg available s)
    (hheld : behind rcfg (s.hand n thread free tap_write_pool) + ids free = behind rcfg s + ids s.reader.free) :
    ids free ≤ ↑s.reader.elsewhere + ↑s.reader.available_tx_buffer_pool.pool := by
  rw [h.elsewhere, ← SocketReader.ids_free, ← hheld]
  exact Multiset.le_add_left _ _

theorem Owned.hand (h : Owned rcfg available s) (hn : n ∈ rcfg.remote_nodes)
    (hheld : behind rcfg (s.hand n thread free tap_write_pool) + ids free = behind rcfg s + ids s.reader.free)
    (hequipped : thread.Equipped) : Owned rcfg available (s.hand n thread free tap_write_pool) := by
  refine ⟨?_, ?_, fun m => ?_, fun m hm => ?_⟩
  · rw [← h.owned, SocketReader.owned, SocketReader.owned]
    exact congrArg _ (SocketReader.shared_exchange s.reader (h.hand_le hheld))
  · refine (SocketReader.elsewhere_exchange s.reader).trans ?_
    rw [h.elsewhere, ← SocketReader.ids_free, ← hheld]
    exact add_tsub_cancel_right _ _
  · show (Function.update s.decoder n thread m).Equipped
    by_cases hm : m = n
    · rw [hm, Function.update_self]
      exact hequipped
    · rw [Function.update_of_ne hm]
      exact h.equipped m
  · show Function.update s.decoder n thread m = .starting
    rw [Function.update_of_ne fun heq : m = n => hm (heq ▸ hn)]
    exact h.nodes m hm

/-- What the step leaves to be decoded. -/
theorem decoded_hand {m : In6Addr} {datagrams : List (PacketBuffer B)}
    (howned : Owned rcfg available s) (hnodup : (SocketReader.owned rcfg s.reader).Nodup)
    (hheld : behind rcfg (s.hand n thread free tap_write_pool) + ids free = behind rcfg s + ids s.reader.free)
    (hfirst : (s.decoder n).remaining = datagrams ++ thread.remaining) (hm : m ∈ rcfg.remote_nodes)
    (frames : List (PacketBuffer B)) :
    decodedBy m [.decoded n datagrams frames] ++
      (((s.hand n thread free tap_write_pool).decoder m).remaining ++
        (s.hand n thread free tap_write_pool).reader.batch m).map PacketBuffer.datagram =
      ((s.decoder m).remaining ++ s.reader.batch m).map PacketBuffer.datagram := by
  have hbatch : (s.hand n thread free tap_write_pool).reader.batch m = s.reader.batch m :=
    SocketReader.batch_exchange s.reader hnodup hm (howned.hand_le hheld)
  rw [hbatch, decodedBy_decoded]
  show _ ++ ((Function.update s.decoder n thread m).remaining ++ _).map _ = _
  by_cases hnm : n = m
  · subst hnm
    rw [Function.update_self, if_pos rfl, hfirst, List.append_assoc, ← List.map_append]
  · rw [Function.update_of_ne (Ne.symm hnm), if_neg hnm]
    rfl

end Hand

/-! ## One step -/

/-- The reader goes on. -/
theorem Inv.readerStep {event : ReaderEvent} {reader : SocketReader B} (h : Inv rcfg available events s)
    (turn : SocketReader.Step rcfg s.reader event reader) (own : reader.phase ≠ s.reader.phase) :
    Inv rcfg available (events ++ [.reader event]) { s with reader := reader } := by
  have hmoves := h.tidy.step h.reader turn own
  have hreader := h.reader.step turn
  refine ⟨⟨hmoves.owned.trans h.owned, ?_, h.equipped, h.nodes⟩, hmoves.tidy, ?_, fun n hn => ?_, ?_⟩
  · rw [hmoves.elsewhere, h.elsewhere]
    rfl
  · simp only [readerEvents_reader, arrivals_concat, pushedTo_concat]
    exact hreader
  · rw [decodedBy_concat, readerEvents_reader, pushedTo_concat, ← h.decoded n hn, List.map_append,
      List.map_append, hmoves.batch n hn]
    show decodedBy n events ++ [] ++ _ = _
    rw [List.append_nil, List.append_assoc, List.append_assoc]
  · rw [framesPushed_concat, framesHandled_concat, h.frames]
    show _ ++ [] = framesHandled events ++ [] ++ _ ++ _
    rw [List.append_nil, List.append_nil]

/-- The thread of a node goes on. -/
theorem Inv.hand {thread : DecoderThread H B} {free datagrams frames : List (PacketBuffer B)}
    {tap_write_pool : BufferPool (PacketBuffer B) B} (h : Inv rcfg available events s) (hn : n ∈ rcfg.remote_nodes)
    (hheld : ids free + ids tap_write_pool.pool + thread.held =
      ids s.reader.free + ids s.tap_write_pool.pool + (s.decoder n).held) (hequipped : thread.Equipped)
    (hfirst : (s.decoder n).remaining = datagrams ++ thread.remaining)
    (hframes : tap_write_pool.pool = s.tap_write_pool.pool ++ frames) :
    Inv rcfg available (events ++ [.decoded n datagrams frames]) (s.hand n thread free tap_write_pool) := by
  have hbehind := behind_hand hn hheld
  have hreader : readerEvents (events ++ [.decoded n datagrams frames]) = readerEvents events := by
    rw [readerEvents_concat]
    exact List.append_nil _
  refine ⟨h.toOwned.hand hn hbehind hequipped, ⟨h.tidy.vacant, h.tidy.known⟩, ?_, fun m hm => ?_, ?_⟩
  · rw [hreader]
    exact h.reader.exchange (h.toOwned.hand_le hbehind)
  · rw [hreader, decodedBy_concat, List.append_assoc,
      decoded_hand h.toOwned h.reader.nodup hbehind hfirst hm frames]
    exact h.decoded m hm
  · rw [framesPushed_concat, framesHandled_concat, h.frames]
    show _ ++ (frames ++ []) = framesHandled events ++ [] ++ s.buffers ++ tap_write_pool.pool
    rw [hframes, List.append_nil, List.append_nil, List.append_assoc]

/-- What the decoder thread has and what is in its pools. -/
theorem held_running {d : PacketDecoder H B} {phase : Phase B} {buffers : List (PacketBuffer B)} :
    d.held + ids phase.buffers + ids buffers = ids d.available_buffer_pool.pool +
      ids d.tx_buffer_pool.pool + (DecoderThread.running d phase buffers).held := by
  simp only [PacketDecoder.held, DecoderThread.held]
  abel

/-- What a step of a decoder is to the threads of `Threads`. -/
theorem held_of_running {d : PacketDecoder H B} {phase : Phase B} {buffers : List (PacketBuffer B)}
    (hthread : s.decoder n = .running d phase buffers) :
    (⟨s.lend d, phase, buffers⟩ : Threads H B).held =
      ids s.reader.free + ids s.tap_write_pool.pool + (s.decoder n).held := by
  rw [hthread]
  exact held_running

/-- What the invariant says of the run. -/
theorem Inv.congr {events' : List (ReceiveEvent B)} (h : Inv rcfg available events s)
    (hreader : readerEvents events' = readerEvents events) (hdecoded : ∀ n, decodedBy n events' = decodedBy n events)
    (hpushed : framesPushed events' = framesPushed events)
    (hhandled : framesHandled events' = framesHandled events) : Inv rcfg available events' s := by
  refine ⟨h.toOwned, h.tidy, ?_, fun n hn => ?_, ?_⟩
  · rw [hreader]
    exact h.reader
  · rw [hreader, hdecoded]
    exact h.decoded n hn
  · rw [hpushed, hhandled]
    exact h.frames

theorem Inv.silent (h : Inv rcfg available events s) : Inv rcfg available (events ++ [.silent]) s := by
  refine h.congr ?_ (fun n => ?_) ?_ ?_
  · exact (readerEvents_concat events .silent).trans (List.append_nil _)
  · exact (decodedBy_concat n events .silent).trans (List.append_nil _)
  · exact (framesPushed_concat events .silent).trans (List.append_nil _)
  · exact (framesHandled_concat events .silent).trans (List.append_nil _)

/-- The constructor goes on, which decodes nothing. -/
theorem Inv.build {thread : DecoderThread H B} {free : List (PacketBuffer B)} (h : Inv rcfg available events s)
    (hn : n ∈ rcfg.remote_nodes) (hheld : ids free + thread.held = ids s.reader.free + (s.decoder n).held)
    (hequipped : thread.Equipped) (hbefore : (s.decoder n).remaining = []) (hbehind : thread.remaining = []) :
    Inv rcfg available (events ++ [.silent]) (s.hand n thread free s.tap_write_pool) := by
  have hhand : Inv rcfg available (events ++ [.decoded n [] []]) (s.hand n thread free s.tap_write_pool) := by
    refine h.hand hn ?_ hequipped (by rw [hbefore, hbehind]; rfl) (List.append_nil _).symm
    rw [add_right_comm, hheld, add_right_comm]
  refine hhand.congr ?_ (fun m => ?_) ?_ ?_
  · rw [readerEvents_concat, readerEvents_concat]
    rfl
  · rw [decodedBy_concat, decodedBy_concat, decodedBy_decoded, List.map_nil, ite_self]
    rfl
  · rw [framesPushed_concat, framesPushed_concat]
    rfl
  · rw [framesHandled_concat, framesHandled_concat]
    rfl

/-- The constructor takes its first buffer. -/
theorem Inv.construct {dcomp_buffer : PacketBuffer B} {pool : BufferPool (PacketBuffer B) B}
    (h : Inv rcfg available events s) (hn : n ∈ rcfg.remote_nodes) (hthread : s.decoder n = .starting)
    (hpop : BufferPool.pop_wait ⟨s.reader.free⟩ = .ok (dcomp_buffer, pool)) :
    Inv rcfg available (events ++ [.silent])
      (s.hand n (.constructing dcomp_buffer) pool.pool s.tap_write_pool) := by
  refine h.build hn ?_ trivial (by rw [hthread]; rfl) rfl
  have hfree : s.reader.free = dcomp_buffer :: pool.pool := BufferPool.pool_of_pop_wait hpop
  rw [hfree, hthread, ids_cons]
  simp only [DecoderThread.held]
  abel

/-- It takes its second. -/
theorem Inv.constructed {dcomp_buffer : PacketBuffer B} {d : PacketDecoder H B}
    (h : Inv rcfg available events s) (hthread : s.decoder n = .constructing dcomp_buffer)
    (hrun : (_getTxBuffer : DecoderCall H B Unit).run
      { init cfg s.tap_write_pool ⟨s.reader.free⟩ with dcomp_buffer := some dcomp_buffer } = .ok () d) :
    Inv rcfg available (events ++ [.silent]) (s.settle n d .idle []) := by
  have hn : n ∈ rcfg.remote_nodes := h.mem_of_decoder (by rw [hthread]; intro heq; cases heq)
  obtain ⟨tx, rest, hfree, rfl⟩ := constructed_eq hrun
  refine h.build hn ?_ ⟨rfl, rfl⟩ (by rw [hthread]; rfl) rfl
  rw [hthread, hfree]
  simp only [init, DecoderThread.held, Phase.buffers, ids_nil, ids_cons, Option.toList_some, PacketBuffer.id_clear]
  abel

/-- A decoder thread takes a batch. -/
theorem Inv.wait {d : PacketDecoder H B} (h : Inv rcfg available events s)
    (hthread : s.decoder n = .running d .idle []) :
    Inv rcfg available (events ++ [.silent]) { s with
      reader := s.reader.takeBatch n
      decoder := Function.update s.decoder n (.running d .idle (s.reader.batch n)) } := by
  have hn : n ∈ rcfg.remote_nodes := h.mem_of_decoder (by rw [hthread]; intro heq; cases heq)
  refine Inv.silent ⟨⟨?_, ?_, fun m => ?_, fun m hm => ?_⟩, ⟨h.tidy.vacant, h.tidy.known⟩,
    h.reader.takeBatch hn, fun m hm => ?_, h.frames⟩
  · rw [← h.owned, SocketReader.owned, SocketReader.owned]
    exact congrArg _ (SocketReader.shared_takeBatch hn)
  · have hsum := PointUpdate.sum_add DecoderThread.held s.decoder hn (.running d .idle (s.reader.batch n))
    have hheld : (DecoderThread.running d .idle (s.reader.batch n)).held =
        (s.decoder n).held + ids (s.reader.batch n) := by
      rw [hthread, DecoderThread.held, DecoderThread.held, ids_nil, add_zero]
    rw [hheld, add_left_comm, add_comm] at hsum
    have hsum := add_left_cancel hsum
    show (↑(s.reader.elsewhere ++ (s.reader.decoder_pool n).pool) : Multiset Nat) = _
    rw [← Multiset.coe_add, h.elsewhere, ← SocketReader.ids_batch]
    simp only [behind, hsum]
    abel
  · show (Function.update s.decoder n _ m).Equipped
    by_cases hm : m = n
    · have hequipped := h.equipped n
      rw [hthread] at hequipped
      rw [hm, Function.update_self]
      exact hequipped
    · rw [Function.update_of_ne hm]
      exact h.equipped m
  · show Function.update s.decoder n _ m = .starting
    rw [Function.update_of_ne fun heq : m = n => hm (heq ▸ hn)]
    exact h.nodes m hm
  · rw [← h.decoded m hm]
    show _ ++ ((Function.update s.decoder n _ m).remaining ++
      (Function.update s.reader.decoder_pool n ⟨[]⟩ m).pool.map _).map _ = _
    by_cases hnm : m = n
    · subst hnm
      rw [Function.update_self, Function.update_self, hthread]
      show _ ++ ((s.reader.batch m) ++ []).map _ = _ ++ ([] ++ s.reader.batch m).map _
      rw [List.append_nil, List.nil_append]
    · rw [Function.update_of_ne hnm, Function.update_of_ne hnm]
      rfl

/-- The TAP writer takes what is in its pool. -/
theorem Inv.tapWait (h : Inv rcfg available events s) (hbuffers : s.buffers = []) :
    Inv rcfg available (events ++ [.silent])
      { s with tap_write_pool := ⟨[]⟩, buffers := s.tap_write_pool.pool } := by
  refine Inv.silent ⟨⟨h.owned, ?_, h.equipped, h.nodes⟩, h.tidy, h.reader, h.decoded, ?_⟩
  · rw [h.elsewhere, behind, behind, hbuffers]
    show _ = _ + ids [] + ids s.tap_write_pool.pool + _
    rw [ids_nil]
    abel
  · rw [h.frames, hbuffers]
    show _ = _ ++ s.tap_write_pool.pool ++ []
    rw [List.append_nil, List.append_nil]

/-- It is through with a frame. -/
theorem Inv.tapHandle {buffer : PacketBuffer B} {rest : List (PacketBuffer B)} {tap_writer : TapWriter}
    (h : Inv rcfg available events s) (hbuffers : s.buffers = buffer :: rest) :
    Inv rcfg available (events ++ [.handled buffer])
      { s with tap_writer := tap_writer, buffers := rest, handled := s.handled ++ [buffer] } := by
  have hreader : readerEvents (events ++ [.handled buffer]) = readerEvents events :=
    (readerEvents_concat _ _).trans (List.append_nil _)
  refine ⟨⟨h.owned, ?_, h.equipped, h.nodes⟩, h.tidy, ?_, fun n hn => ?_, ?_⟩
  · rw [h.elsewhere, behind, behind, hbuffers]
    simp only [ids_append, ids_cons, ids_nil]
    abel
  · rw [hreader]
    exact h.reader
  · rw [hreader, decodedBy_concat]
    exact (congrArg (· ++ _) (List.append_nil _)).trans (h.decoded n hn)
  · rw [framesPushed_concat, framesHandled_concat, h.frames, hbuffers]
    show _ ++ [] = framesHandled events ++ [buffer] ++ rest ++ _
    simp only [List.append_nil, List.append_assoc, List.cons_append, List.nil_append]

/-- It gives the buffers of its round back. -/
theorem Inv.tapGiveBack (h : Inv rcfg available events s) : Inv rcfg available (events ++ [.silent])
    { s with reader := s.reader.exchange (s.reader.free ++ s.handled), handled := [] } := by
  have hbehind : behind rcfg s + ↑s.reader.available_tx_buffer_pool.pool =
      behind rcfg { s with handled := [] } + ids (s.reader.free ++ s.handled) := by
    rw [ids_append, SocketReader.ids_free, behind, behind]
    show _ = _ + ids [] + _
    rw [ids_nil]
    abel
  have hle : ids (s.reader.free ++ s.handled) ≤
      ↑s.reader.elsewhere + ↑s.reader.available_tx_buffer_pool.pool := by
    rw [h.elsewhere, hbehind]
    exact Multiset.le_add_left _ _
  refine Inv.silent ⟨⟨?_, ?_, h.equipped, h.nodes⟩, ⟨h.tidy.vacant, h.tidy.known⟩, h.reader.exchange hle,
    fun n hn => ?_, h.frames⟩
  · rw [← h.owned, SocketReader.owned, SocketReader.owned]
    exact congrArg _ (SocketReader.shared_exchange s.reader hle)
  · refine (SocketReader.elsewhere_exchange s.reader).trans ?_
    rw [h.elsewhere, hbehind]
    exact add_tsub_cancel_right _ _
  · rw [← h.decoded n hn]
    show _ ++ (_ ++ (s.reader.exchange (s.reader.free ++ s.handled)).batch n).map _ = _
    rw [SocketReader.batch_exchange s.reader h.reader.nodup hn hle]

/-- **One step** of any thread keeps the invariant. -/
theorem Inv.step (h : Inv rcfg available events s) (hstep : Step rcfg cfg s event s') :
    Inv rcfg available (events ++ [event]) s' := by
  cases hstep with
  | reader turn own => exact h.readerStep turn own
  | construct node thread pop => exact h.construct node thread pop
  | constructed thread run => exact h.constructed thread run
  | wait thread => exact h.wait thread
  | @decode n d phase buffers frames event t thread turn own first pushed =>
    have hn : n ∈ rcfg.remote_nodes := h.mem_of_decoder (by rw [thread]; intro heq; cases heq)
    have hequips : phase.Equips (s.lend d) := by
      have hequipped := h.equipped n
      rw [thread] at hequipped
      cases phase <;> exact hequipped
    obtain ⟨hequips', hheld⟩ := Threads.held_step hequips turn
    refine h.hand hn (held_running.symm.trans (hheld.trans (held_of_running thread))) hequips' ?_ pushed
    rw [thread]
    exact first
  | tapWait buffers => exact h.tapWait buffers
  | tapHandle buffers => exact h.tapHandle buffers
  | tapGiveBack => exact h.tapGiveBack
  | learning =>
    exact Inv.silent ⟨⟨h.owned, h.elsewhere, h.equipped, h.nodes⟩, h.tidy, h.reader, h.decoded, h.frames⟩

/-! ## Whole runs -/

variable {heap : Nat → PacketBuffer B} {tap_writer : TapWriter}

theorem Inv.start (h : available.Nodup) :
    Inv rcfg available [] (start heap available tap_writer : ReceiveSide H B) := by
  have hreader : SocketReader.Inv rcfg [] (fun _ => []) (SocketReader.start heap available) :=
    SocketReader.Inv.start h
  have hnone : ∑ n ∈ rcfg.remote_nodes, (DecoderThread.starting : DecoderThread H B).held = 0 :=
    Finset.sum_eq_zero fun _ _ => rfl
  refine ⟨⟨SocketReader.owned_start, ?_, fun _ => True.intro, fun _ _ => rfl⟩,
    ⟨fun _ _ => rfl, fun _ _ => rfl⟩, hreader, fun _ _ => rfl, rfl⟩
  show (0 : Multiset Nat) = ∑ n ∈ rcfg.remote_nodes, (DecoderThread.starting : DecoderThread H B).held +
    ids [] + ids [] + ids []
  rw [hnone, ids_nil]
  rfl

/-- **Runs** keep the invariant. -/
theorem Inv.of_path (h : available.Nodup)
    (hrun : StepPath (Step rcfg cfg) (ReceiveSide.start heap available tap_writer) events s) :
    Inv rcfg available events s := by
  refine hrun.invariant_prefix [] (I := fun events s => Inv rcfg available events s) ?_ (Inv.start h)
  intro events s event t hs hstep
  exact hs.step hstep

/-- Nothing is on its way through the threads. -/
structure Quiet (rcfg : ReaderConfig) (s : ReceiveSide H B) : Prop where
  reader : s.reader.phase = .receiving
  decoder_pool : ∀ n ∈ rcfg.remote_nodes, (s.reader.decoder_pool n).pool = []
  decoder : ∀ n ∈ rcfg.remote_nodes, s.decoder n = .starting ∨ ∃ d, s.decoder n = .running d .idle []
  tap_write_pool : s.tap_write_pool.pool = []
  buffers : s.buffers = []

/-- **What the receiving half hands on**: a decoder is called with the datagrams for its node, byte
for byte and in the order they came in, and the TAP writer handles the frames that the decoders
push in the order they push them; when nothing is on its way, all of them. -/
structure InOrder (rcfg : ReaderConfig) (events : List (ReceiveEvent B)) (s : ReceiveSide H B) : Prop where
  decoded : ∀ n ∈ rcfg.remote_nodes,
    decodedBy n events <+: (arrivals (readerEvents events)).filter (GoesTo rcfg n)
  handled : framesHandled events <+: framesPushed events
  quiet : Quiet rcfg s → framesHandled events = framesPushed events ∧
    ∀ n ∈ rcfg.remote_nodes, decodedBy n events = (arrivals (readerEvents events)).filter (GoesTo rcfg n)

theorem Inv.inOrder (h : Inv rcfg available events s) : InOrder rcfg events s := by
  have hreader := SocketReader.Inv.sorts h.reader
  refine ⟨fun n hn => ?_, ?_, fun hquiet => ⟨?_, fun n hn => ?_⟩⟩
  · have hprefix : decodedBy n events <+: pushedTo n (readerEvents events) := by
      rw [← h.decoded n hn]
      exact List.prefix_append _ _
    exact hprefix.trans (hreader.pushed n)
  · rw [h.frames, List.append_assoc]
    exact List.prefix_append _ _
  · rw [h.frames, hquiet.buffers, hquiet.tap_write_pool, List.append_nil, List.append_nil]
  · have hremaining : (s.decoder n).remaining = [] := by
      rcases hquiet.decoder n hn with hthread | ⟨d, hthread⟩
      · rw [hthread]
        rfl
      · rw [hthread]
        rfl
    have hdecoded := h.decoded n hn
    rw [hremaining, SocketReader.batch, hquiet.decoder_pool n hn] at hdecoded
    rw [← hreader.settled hquiet.reader n, ← hdecoded]
    exact (List.append_nil _).symm

end ReceiveSide
end SuperEthd
