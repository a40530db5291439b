import SuperEthd.ReceiveStream

/-! # Runs of the receiving half

The results about whole runs of `ReceiveSide`: no buffer is lost, everything is handed on in order, and
a node's frames come out as they went in.  A run in which a frame goes all the way shows that the
threads can do so. -/
namespace SuperEthd
open PacketHeaderOptionType PacketHeaderOptionFormatType PacketDecoder

variable {H : Type} {B : Nat}

namespace SocketReader
variable {rcfg : ReaderConfig} {r r' : SocketReader B} {arrived : List UdpDatagram}
  {pushed : In6Addr → List UdpDatagram} {n : In6Addr} {p : UdpDatagram}

/-! ## Rounds of the reader -/

/-- A step of the reader's own. -/
def Own (rcfg : ReaderConfig) (r : SocketReader B) (event : ReaderEvent) (r' : SocketReader B) : Prop :=
  Step rcfg r event r' ∧ r'.phase ≠ r.phase

variable (rcfg) in
/-- The phase tells the two states apart. -/
theorem Own.of_phase {event : ReaderEvent} {phase phase' : ReaderPhase} (hstep : Step rcfg r event r')
    (h : r.phase = phase) (h' : r'.phase = phase') (hne : phase' ≠ phase) : Own rcfg r event r' := by
  refine ⟨hstep, ?_⟩
  rw [h, h']
  exact hne

variable (rcfg) in
/-- The reader sets its slots up. -/
theorem exists_own_filled (heap : Nat → PacketBuffer B) (available : List Nat) {k : Nat}
    (hk : k ≤ SETH_MAX_RECVMM_MESSAGES) (hlen : k ≤ available.length) :
    ∃ events r, StepPath (Own rcfg) (start heap available) events r ∧ arrivals events = [] ∧
      r.phase = .filling k ∧ r.available_tx_buffer_pool.pool = available.drop k := by
  induction k with
  | zero => exact ⟨[], _, .nil _, rfl, rfl, rfl⟩
  | succ k ih =>
    obtain ⟨events, r, hpath, hnone, hphase, hpool⟩ := ih (by omega) (by omega)
    rw [List.drop_eq_getElem_cons (by omega)] at hpool
    have hpop : r.available_tx_buffer_pool.pop_wait =
        .ok (available[k], ⟨available.drop (k + 1)⟩) := by
      rw [BufferPool.pop_wait, hpool]
    have hown := Own.of_phase rcfg (.filled hphase (by omega) hpop) hphase rfl (by simp)
    refine ⟨_, _, hpath.concat hown, ?_, rfl, rfl⟩
    rw [arrivals_concat, hnone]
    rfl

/-- **A datagram for a node** comes in, and is queued. -/
theorem exists_own_queued (h : Inv rcfg arrived pushed r) (hphase : r.phase = .receiving)
    (hlen : p.data.length ≤ B) (hfamily : p.source.size = rcfg.name_size) (hgoes : GoesTo rcfg n p) :
    ∃ events r', StepPath (Own rcfg) r events r' ∧ arrivals events = [p] ∧
      r'.phase = .replenishing 0 1 ∧ r'.available_tx_buffer_pool = r.available_tx_buffer_pool := by
  have hmax : 1 ≤ SETH_MAX_RECVMM_MESSAGES := by
    rw [SETH_MAX_RECVMM_MESSAGES]
    omega
  have hready : AllReady rcfg r := by
    have hok := h.phase
    rw [hphase] at hok
    exact hok.1
  have hfits : ∀ i (hi : i < [p].length), [p][i].data.length ≤ (r.slots i).iov_len := by
    intro i hi
    obtain ⟨a, ha⟩ := hready i (by rw [List.length_singleton] at hi; omega)
    rw [ha.iov_len, List.getElem_singleton]
    exact hlen
  have hfam : ∀ q ∈ [p], q.source.size = rcfg.name_size := by
    intro q hq
    rw [List.mem_singleton.mp hq]
    exact hfamily
  obtain ⟨r1, h1, hphase1, hinv1, hpool1⟩ : ∃ r1, Step rcfg r (.received [p]) r1 ∧
      r1.phase = .handling 0 1 ∧ Inv rcfg (arrived ++ [p]) pushed r1 ∧
      r1.available_tx_buffer_pool = r.available_tx_buffer_pool :=
    ⟨_, .received hphase hmax hfits hfam, rfl, h.received hphase hmax hfits hfam,
      (recvmmsg_sameOwners rcfg r 0 [p]).available_tx_buffer_pool⟩
  -- the datagram is in slot 0
  have hok := hinv1.phase
  rw [hphase1] at hok
  obtain ⟨-, -, hready1, before, batch, harrived, hcount, -, hholds⟩ := hok
  obtain ⟨rfl, rfl⟩ := List.append_inj' harrived hcount.symm
  obtain ⟨a, ha⟩ := hready1 0 hmax
  rcases handle_run rcfg ha.buffer (hholds 0 Nat.zero_lt_one le_rfl) with
    ⟨m, b, -, -, hrun⟩ | ⟨hnone, -⟩
  swap
  · exact absurd hgoes (hnone n)
  have hown1 := Own.of_phase rcfg h1 hphase hphase1 (by simp)
  have hown2 := Own.of_phase rcfg (.queued hphase1 Nat.zero_lt_one hrun) hphase1 rfl (by simp)
  exact ⟨_, _, .cons hown1 (.single hown2), rfl, rfl, hpool1⟩

variable (rcfg) in
/-- What is queued is pushed, node by node. -/
theorem exists_own_pushed {node_keys : List In6Addr} (hphase : r.phase = .pushing node_keys) :
    ∃ events r', StepPath (Own rcfg) r events r' ∧ arrivals events = [] ∧ r'.phase = .receiving ∧
      r'.available_tx_buffer_pool = r.available_tx_buffer_pool := by
  induction node_keys generalizing r with
  | nil => exact ⟨_, _, .single (.of_phase rcfg (.again hphase) hphase rfl (by simp)), rfl, rfl, rfl⟩
  | cons n node_keys ih =>
    have hpush : (r.decoder_pool n).pushBatch r.bufferSize (r.received_buffers.queue n) =
        .ok ⟨(r.decoder_pool n).pool ++ r.received_buffers.queue n⟩ := by
      rw [BufferPool.pushBatch, if_neg]
      simp [bufferSize]
    obtain ⟨r1, h1, hphase1, hpool1⟩ : ∃ r1, Step rcfg r (.pushed n ((r.received_buffers.queue n).map
        fun a => (r.heap a).datagram)) r1 ∧ r1.phase = .pushing node_keys ∧
        r1.available_tx_buffer_pool = r.available_tx_buffer_pool := ⟨_, .pushed hphase hpush, rfl, rfl⟩
    obtain ⟨events, r', hpath, hnone, hphase', hpool'⟩ := ih hphase1
    have hown := Own.of_phase rcfg h1 hphase hphase1 (by simp)
    exact ⟨_, r', .cons hown hpath, hnone, hphase', hpool'.trans hpool1⟩

/-- **A round** with one datagram, which costs a free buffer. -/
theorem exists_own_round {a : Nat} {rest : List Nat} (h : Inv rcfg arrived pushed r)
    (hphase : r.phase = .receiving) (hpool : r.available_tx_buffer_pool.pool = a :: rest)
    (hlen : p.data.length ≤ B) (hfamily : p.source.size = rcfg.name_size) (hgoes : GoesTo rcfg n p) :
    ∃ events r', StepPath (Own rcfg) r events r' ∧ arrivals events = [p] ∧ r'.phase = .receiving ∧
      r'.available_tx_buffer_pool.pool = rest := by
  obtain ⟨events1, r1, hpath1, harr1, hphase1, hpool1⟩ := exists_own_queued h hphase hlen hfamily hgoes
  have hpop : r1.available_tx_buffer_pool.pop_wait = .ok (a, ⟨rest⟩) := by
    rw [hpool1, BufferPool.pop_wait, hpool]
  obtain ⟨r2, h2, hphase2, hpool2⟩ : ∃ r2, Step rcfg r1 .silent r2 ∧ r2.phase = .handling 1 1 ∧
      r2.available_tx_buffer_pool.pool = rest := ⟨_, .replenished hphase1 hpop, rfl, rfl⟩
  obtain ⟨r3, h3, hphase3, hpool3⟩ : ∃ r3, Step rcfg r2 .silent r3 ∧
      r3.phase = .pushing (r2.received_buffers.values.map NodeBuffers.key) ∧
      r3.available_tx_buffer_pool = r2.available_tx_buffer_pool :=
    ⟨_, .handled hphase2 (List.Perm.refl _), rfl, rfl⟩
  obtain ⟨events4, r4, hpath4, harr4, hphase4, hpool4⟩ := exists_own_pushed rcfg hphase3
  have hown2 := Own.of_phase rcfg h2 hphase1 hphase2 (by simp)
  have hown3 := Own.of_phase rcfg h3 hphase2 hphase3 (by simp)
  refine ⟨_, r4, hpath1.append (.cons hown2 (.cons hown3 hpath4)), ?_, hphase4, ?_⟩
  · rw [arrivals, List.flatMap_append]
    show arrivals events1 ++ arrivals events4 = [p]
    rw [harr1, harr4]
    rfl
  · rw [hpool4, hpool3, hpool2]

end SocketReader

/-! ## A datagram with one frame -/

/-- The first datagram of an encoder, with one frame. -/
def Datagram.single (f : EncodedFrame H) : Datagram H := ⟨1, [.whole f]⟩

/-- The first frame of an encoder, which is not long. -/
structure EncodedFrame.First (T : Tunnel H) (f : EncodedFrame H) : Prop where
  valid : f.Valid T
  index : f.index = 0
  before : f.before = T.lib.reset
  short : f.bytes.length ≤ 1000

section Single
variable {T : Tunnel H} {f : EncodedFrame H}

theorem Datagram.single_size (f : EncodedFrame H) : (single f).size = 16 + f.bytes.length := by
  show 8 + (8 + f.bytes.length + 0) = _
  omega

/-- It is a stream of its own. -/
theorem exists_places_single (h : f.First T) : ∃ place, Places T 1 [Datagram.single f] place := by
  have hbounds := T.size_bounds
  have hshort := h.short
  have hemits : Emits T (.between 0 T.lib.reset) (Datagram.single f) (.between 1 T.lib.reset) := by
    refine ⟨⟨.between 1 f.after, ?_, rfl, fun g k off heq => ?_⟩, List.cons_ne_nil _ _, ?_⟩
    · have hfollows := Follows.whole h.valid
      rw [h.index, h.before] at hfollows
      exact .single hfollows
    · cases heq
    · rw [Datagram.single_size]
      omega
  have hsends : Sends T (.between 0 T.lib.reset, 1) (Datagram.single f) (.between 1 T.lib.reset, 2) :=
    ⟨hemits, (by decide : (1 : UInt32) = PacketEncoder.nextSequence 1), rfl⟩
  obtain ⟨place, hplaces, -⟩ := exists_places (.single hsends)
  exact ⟨place, hplaces⟩

end Single

/-- A datagram with a record in it passes the checks of the reader. -/
theorem Datagram.headerPasses {D : Datagram H} (hne : D.records ≠ []) (host : ByteOrder) :
    HeaderPasses host (D.bytes host) := by
  constructor
  · obtain ⟨r, records, hcons⟩ := List.exists_cons_of_ne_nil hne
    rw [Datagram.bytes_length, Datagram.size, hcons, sizeOfRecords_cons, Record.size]
    omega
  · have hread : (PacketHeader.read host fun k => (D.bytes host).getD k 0) = PacketEncoder.header D.sequence 1 := by
      refine PacketHeader.read_bytes host (header_fits D.sequence) fun i hi => ?_
      exact List.getD_append _ _ _ _ (by rw [PacketHeader.bytes_length]; exact hi)
    rw [hread]
    exact ⟨Nat.le_refl 1, rfl, rfl, rfl⟩

namespace ReceiveSide
variable {rcfg : ReaderConfig} {n : In6Addr}

/-- The reader goes on, and the others do nothing. -/
theorem path_of_own {cfg : DecoderConfig H} {s : ReceiveSide H B} {reader : SocketReader B}
    {events : List ReaderEvent} (h : StepPath (SocketReader.Own rcfg) s.reader events reader) :
    StepPath (Step rcfg cfg) s (events.map .reader) { s with reader := reader } := by
  generalize hstart : s.reader = start at h
  induction h generalizing s with
  | nil r =>
    obtain rfl := hstart
    exact .nil _
  | @cons r r1 r2 event events hown _ ih =>
    obtain rfl := hstart
    exact .cons (.reader hown.1 hown.2) (ih (s := { s with reader := r1 }) rfl)

theorem readerEvents_append (events events' : List (ReceiveEvent B)) :
    readerEvents (events ++ events') = readerEvents events ++ readerEvents events' :=
  List.flatMap_append

theorem framesHandled_append (events events' : List (ReceiveEvent B)) :
    framesHandled (events ++ events') = framesHandled events ++ framesHandled events' :=
  List.flatMap_append

theorem decodedBy_append (n : In6Addr) (events events' : List (ReceiveEvent B)) :
    decodedBy n (events ++ events') = decodedBy n events ++ decodedBy n events' :=
  List.flatMap_append

theorem readerEvents_map (events : List ReaderEvent) :
    readerEvents (events.map (ReceiveEvent.reader (B := B))) = events := by
  induction events with
  | nil => rfl
  | cons event events ih => exact congrArg (event :: ·) ih

theorem framesHandled_map (events : List ReaderEvent) :
    framesHandled (events.map (ReceiveEvent.reader (B := B))) = [] := by
  induction events with
  | nil => rfl
  | cons event events ih => exact ih

theorem decodedBy_map (n : In6Addr) (events : List ReaderEvent) :
    decodedBy n (events.map (ReceiveEvent.reader (B := B))) = [] := by
  induction events with
  | nil => rfl
  | cons event events ih => exact ih

section Decoder
variable {T : Tunnel H} {heap : Nat → UInt8} {ds : List (Datagram H)} {place : Nat → Cursor H × UInt32}
  {s0 : UInt32} {s : ReceiveSide H T.B} {d : PacketDecoder H T.B} {b : PacketBuffer T.B}
  {rest frames : List (PacketBuffer T.B)} {js : List Nat} {j : Nat} {D : Datagram H} {f : EncodedFrame H}

/-- A record with a whole frame stands between two frames. -/
theorem follows_whole {c c' : Cursor H} (h : Follows T c (.whole f) c') :
    f.Valid T ∧ c = .between f.index f.before := by
  generalize hr : Record.whole f = r at h
  cases h with
  | whole hf =>
    obtain rfl := congrArg Record.of hr
    exact ⟨hf, rfl⟩
  | first => exact absurd (congrArg Record.part hr) Nat.zero_ne_one
  | next => exact absurd (congrArg Record.part hr) (Nat.succ_ne_zero _).symm
  | last => exact absurd (congrArg Record.part hr) (Nat.succ_ne_zero _).symm

/-- A decoder holds nothing between two frames. -/
theorem holding_of_reads {c : Cursor H} {synced : Bool} {d : PacketDecoder H T.B}
    (hc : c = .between f.index f.before) (hcut : c.cut T = c) (h : Reads T synced c d) :
    Holding T 0 NONE 0 [] f.before d := by
  subst hc
  obtain hreset : T.lib.reset = f.before := (Cursor.between.inj hcut).2
  cases synced with
  | true => exact h
  | false =>
    rw [← hreset]
    exact h

/-- An option that delivers a frame pushes it. -/
theorem exists_frame {d' : PacketDecoder H T.B} {tx : PacketBuffer T.B} {pos : Nat} {flag : Bool} {r : Progress}
    {option : PacketHeaderOption} (ho : Outcome (T.decoder heap) b pos flag option tx d r d')
    (hdata : d'.tx_buffer_pool.pool.map PacketBuffer.data =
      d.tx_buffer_pool.pool.map PacketBuffer.data ++ [f.frame]) :
    ∃ frame : PacketBuffer T.B, frame.data = f.frame ∧
      d'.tx_buffer_pool.pool = d.tx_buffer_pool.pool ++ [frame] := by
  rcases ho.frames with heq | ⟨-, -, frame, -, heq, -⟩
  · have hlen := congrArg List.length hdata
    rw [heq, List.length_append] at hlen
    exact absurd hlen (Nat.ne_of_lt (Nat.lt_succ_self _))
  · rw [heq, List.map_append] at hdata
    exact ⟨frame, (List.cons.inj (List.append_cancel_left hdata)).1, heq⟩

/-- **A frame that is whole in its datagram** is pushed. -/
theorem exists_pushed (hlib : LosslessLib T) (h : Places T s0 ds place)
    (hthread : s.decoder n = .running d .idle (b :: rest))
    (hm : Mirrors ds place (Receiver.run ds place js) (d.apart frames)) (hD : ds[j]? = some D)
    (hrecords : D.records = [.whole f]) (hdata : b.data = D.bytes T.host)
    (hon : Honest (Receiver.run ds place js) j D.sequence (d.apart frames)) :
    ∃ s' d' frame pos, StepPath (Step rcfg (T.decoder heap)) s
        [.decoded n [b] [], .decoded n [] [frame]] s' ∧ frame.data = f.frame ∧
      s'.decoder = Function.update s.decoder n (.running d' (.refill b false pos) rest) ∧
      s'.tap_write_pool.pool = s.tap_write_pool.pool ++ [frame] ∧
      s'.reader.phase = s.reader.phase ∧ s'.buffers = s.buffers ∧ s'.handled = s.handled ∧
      b.dataSize ≤ pos ∧ s'.reader.decoder_pool = s.reader.decoder_pool := by
  have hlent : Mirrors ds place (Receiver.run ds place js) ((s.lend d).apart frames) :=
    hm.same ⟨rfl, rfl, rfl, rfl, rfl, rfl, rfl, rfl⟩ rfl
  obtain ⟨htx, hreads, hd⟩ := hlent.reads heap h hD hon
  have hemits := h.emits hD
  obtain ⟨c', hpath, -, -⟩ := hemits.path
  obtain ⟨_, d1, hrun1, rfl, rfl⟩ | ⟨_, _, _, hfalse⟩ :=
    (decodeHeader_follows (d := s.lend d) (E := fun _ _ => False) hpath hemits.nonempty hdata htx).of_run rfl
  swap
  · exact hfalse.elim
  rw [hrecords] at hpath
  obtain ⟨c1, hfollows, -⟩ := StepPath.cons_iff.mp hpath
  obtain ⟨hf, hplace⟩ := follows_whole hfollows
  have hholding := holding_of_reads hplace (h.cut (List.getElem?_eq_some_iff.mp hD).1.le) hreads
  have hs : SuperEthd.Stands b ((PacketEncoder.header D.sequence 1).bytes T.host) (.whole f) :=
    .of_cons [] (by rw [hdata, Datagram.bytes, hrecords])
  -- the header
  let s1 := s.settle n ((s.lend d).arrived (T.decoder heap) D.sequence) (.options b PacketHeader.size true) rest
  have hstep1 : Step rcfg (T.decoder heap) s (.decoded n [b] []) s1 := by
    refine .decode hthread (.opened (l := []) hrun1) (by intro heq; cases heq) rfl ?_
    rw [List.append_nil]
    exact congrArg BufferPool.pool (arrived_tx_buffer_pool heap _ _)
  have hthread1 : s1.decoder n = .running ((s.lend d).arrived (T.decoder heap) D.sequence)
      (.options b PacketHeader.size true) rest := Function.update_self ..
  -- the option
  have hholding1 : Holding T 0 NONE 0 [] f.before
      (s1.lend ((s.lend d).arrived (T.decoder heap) D.sequence)) :=
    ⟨hholding.last_part, hholding.same, hholding.tx_buffer, hholding.dcomp_buffer, hholding.stream⟩
  obtain ⟨_, d2, hrun2, rfl, hpushed⟩ | ⟨_, _, _, hfalse⟩ :=
    Call.Meets.of_run (x := takeOption (T.decoder heap) b _ true) (takeOption_whole (E := fun _ _ => False)
      hf hlib hholding1 ⟨hd.first_packet, hd.last_sequence, rfl⟩ hs) rfl
  swap
  · exact hfalse.elim
  obtain ⟨tx, htx1, -⟩ := hholding1.tx_buffer
  obtain ⟨dc, hdc1⟩ := hholding1.dcomp_buffer
  rw [PacketHeader.bytes_length] at hrun2
  obtain ⟨frame, hframe, hpool⟩ := exists_frame ((takeOption_meets htx1 hdc1).ok rfl hrun2) hpushed.frames
  have hsize := hs.size_le
  rw [PacketHeader.bytes_length, Record.size] at hsize
  have h8 : PacketHeaderOption.size = 8 := rfl
  have hstep2 : Step rcfg (T.decoder heap) s1 (.decoded n [] [frame]) _ :=
    .decode hthread1 (.delivered (by omega) hrun2) (by intro heq; cases heq) rfl hpool
  refine ⟨_, d2, frame, PacketHeader.size + (Record.whole f).size, .cons hstep1 (.single hstep2), hframe, ?_, ?_, rfl, rfl, rfl,
    ?_, rfl⟩
  · exact Function.update_idem _ _ _
  · exact hpool.trans (congrArg (fun pool => pool.pool ++ [frame]) (arrived_tx_buffer_pool heap _ _))
  · rw [← b.data_length, hdata, Datagram.bytes_length, Datagram.size, hrecords]
    exact Nat.le_refl _

/-- What a thread leaves free is free. -/
theorem pool_hand {free : List (PacketBuffer T.B)} {buffer : PacketBuffer T.B}
    (h : s.reader.free = buffer :: free) :
    (free.map PacketBuffer.id) = s.reader.available_tx_buffer_pool.pool.tail := by
  have htail := congrArg (fun free => (free.map PacketBuffer.id).tail) h
  rw [SocketReader.free, List.map_map] at htail
  exact htail.symm.trans (congrArg List.tail (List.map_id _))

variable (rcfg heap ds place) in
/-- A decoder is made, from the two buffers that are the first in the pool. -/
theorem exists_constructed {dc tx : Nat} {rest : List Nat} (hn : n ∈ rcfg.remote_nodes)
    (hthread : s.decoder n = .starting) (hpool : s.reader.available_tx_buffer_pool.pool = dc :: tx :: rest) :
    ∃ (d : PacketDecoder H T.B) (reader : SocketReader T.B),
      StepPath (Step rcfg (T.decoder heap)) s [.silent, .silent] { s with
        reader := reader
        decoder := Function.update s.decoder n (.running d .idle []) } ∧
      reader.phase = s.reader.phase ∧ reader.available_tx_buffer_pool.pool = rest ∧
      Mirrors ds place (Receiver.run ds place []) (d.apart []) := by
  obtain ⟨dcomp_buffer, free1, hfree1⟩ : ∃ dcomp_buffer free1, s.reader.free = dcomp_buffer :: free1 := by
    rw [SocketReader.free, hpool]
    exact ⟨_, _, rfl⟩
  let s1 : ReceiveSide H T.B := s.hand n (.constructing dcomp_buffer) free1 s.tap_write_pool
  have hpop : BufferPool.pop_wait (⟨s.reader.free⟩ : BufferPool (PacketBuffer T.B) T.B) =
      .ok (dcomp_buffer, ⟨free1⟩) := by
    rw [BufferPool.pop_wait, hfree1]
  have hstep1 : Step rcfg (T.decoder heap) s .silent s1 := .construct hn hthread hpop
  have hpool1 : s1.reader.available_tx_buffer_pool.pool = tx :: rest :=
    (pool_hand hfree1).trans (by rw [hpool]; rfl)
  obtain ⟨tx_buffer, free2, hfree2⟩ : ∃ tx_buffer free2, s1.reader.free = tx_buffer :: free2 := by
    rw [SocketReader.free, hpool1]
    exact ⟨_, _, rfl⟩
  obtain ⟨d, hrun, hfree⟩ : ∃ d : PacketDecoder H T.B, (_getTxBuffer : DecoderCall H T.B Unit).run
      { init (T.decoder heap) s1.tap_write_pool ⟨s1.reader.free⟩ with dcomp_buffer := some dcomp_buffer } =
        .ok () d ∧ d.available_buffer_pool.pool = free2 := by
    rw [hfree2]
    exact ⟨_, rfl, rfl⟩
  have hsame : d.tx_buffer_pool = s.tap_write_pool := by
    obtain ⟨_, _, _, rfl⟩ := constructed_eq hrun
    rfl
  have hstep2 : Step rcfg (T.decoder heap) s1 .silent (s1.settle n d .idle []) :=
    .constructed (Function.update_self ..) hrun
  have hsettle : s1.settle n d .idle [] = { s with
      reader := s1.reader.exchange d.available_buffer_pool.pool
      decoder := Function.update s.decoder n (.running d .idle []) } := by
    rw [settle, ReceiveSide.hand, hsame]
    exact congrArg (fun decoder => { s with
      reader := s1.reader.exchange d.available_buffer_pool.pool, decoder := decoder }) (Function.update_idem ..)
  rw [hsettle] at hstep2
  refine ⟨d, _, .cons hstep1 (.single hstep2), rfl, ?_, inStream_constructed hrun⟩
  show d.available_buffer_pool.pool.map PacketBuffer.id = rest
  rw [hfree]
  exact (pool_hand hfree2).trans (by rw [hpool1]; rfl)

variable (heap ds place) in
/-- A decoder is made, and the first datagram of its node is queued for it. -/
theorem exists_waiting {available : List Nat} (heap' : Nat → PacketBuffer T.B) (tap_writer : TapWriter)
    {p : UdpDatagram} (hnodup : available.Nodup) (hlen : SETH_MAX_RECVMM_MESSAGES + 3 ≤ available.length)
    (hfit : p.data.length ≤ T.B) (hfamily : p.source.size = rcfg.name_size) (hgoes : GoesTo rcfg n p) :
    ∃ (events : List (ReceiveEvent T.B)) (s : ReceiveSide H T.B) (d : PacketDecoder H T.B)
        (b : PacketBuffer T.B),
      StepPath (Step rcfg (T.decoder heap)) (.start heap' available tap_writer) events s ∧
      arrivals (readerEvents events) = [p] ∧ framesHandled events = [] ∧ b.data = p.data ∧
      s.reader.phase = .receiving ∧
      s.decoder = Function.update (fun _ => .starting) n (.running d .idle [b]) ∧
      Mirrors ds place (Receiver.run ds place []) (d.apart []) ∧ s.tap_write_pool.pool = [] ∧
      s.buffers = [] ∧ s.handled = [] ∧ (s.reader.decoder_pool n).pool = [] := by
  obtain ⟨events1, r1, hpath1, hnone, hphase1, hpool1⟩ := SocketReader.exists_own_filled (B := T.B) rcfg heap'
    available (k := SETH_MAX_RECVMM_MESSAGES) le_rfl (by omega)
  have hn : n ∈ rcfg.remote_nodes := hgoes.2.1
  -- three buffers are left
  obtain ⟨dc, tx, a, rest, hdrop⟩ : ∃ dc tx a rest,
      available.drop SETH_MAX_RECVMM_MESSAGES = dc :: tx :: a :: rest := by
    have hlen' : (available.drop SETH_MAX_RECVMM_MESSAGES).length ≥ 3 := by
      rw [List.length_drop]
      omega
    match available.drop SETH_MAX_RECVMM_MESSAGES, hlen' with
    | dc :: tx :: a :: rest, _ => exact ⟨dc, tx, a, rest, rfl⟩
  rw [hdrop] at hpool1
  obtain ⟨r2, h2, hphase2, hpool2⟩ : ∃ r2, SocketReader.Step rcfg r1 .silent r2 ∧
      r2.phase = .receiving ∧ r2.available_tx_buffer_pool.pool = dc :: tx :: a :: rest :=
    ⟨_, .ready hphase1, rfl, hpool1⟩
  have hpath2 := hpath1.concat (SocketReader.Own.of_phase rcfg h2 hphase1 hphase2 (by simp))
  -- the decoder takes two of them
  let s0 : ReceiveSide H T.B := .start heap' available tap_writer
  let s2 : ReceiveSide H T.B := { s0 with reader := r2 }
  obtain ⟨d, r3, hmade, hphase3, hpool3, hmirrors⟩ :=
    exists_constructed rcfg heap ds place (s := s2) hn rfl hpool2
  let s3 : ReceiveSide H T.B := { s2 with
    reader := r3
    decoder := Function.update s2.decoder n (.running d .idle []) }
  have hpath3 : StepPath (Step rcfg (T.decoder heap)) s0
      ((events1 ++ [ReaderEvent.silent]).map .reader ++ [.silent, .silent]) s3 :=
    (path_of_own (s := s0) hpath2).append hmade
  -- the datagram comes in
  obtain ⟨events4, r4, hpath4, harr4, hphase4, -⟩ :=
    SocketReader.exists_own_round (Inv.of_path hnodup hpath3).reader (hphase3.trans hphase2) hpool3 hfit hfamily hgoes
  let s4 : ReceiveSide H T.B := { s3 with reader := r4 }
  have hpath4 : StepPath (Step rcfg (T.decoder heap)) s0
      ((events1 ++ [ReaderEvent.silent]).map .reader ++ [.silent, .silent] ++ events4.map .reader) s4 :=
    hpath3.append (path_of_own (s := s3) hpath4)
  have hreader : readerEvents ((events1 ++ [ReaderEvent.silent]).map .reader ++ [.silent, .silent] ++
      events4.map (ReceiveEvent.reader (B := T.B))) = events1 ++ [.silent] ++ events4 := by
    rw [readerEvents_append, readerEvents_append, readerEvents_map, readerEvents_map]
    exact congrArg (· ++ events4) (List.append_nil _)
  have harrived : arrivals (events1 ++ [.silent] ++ events4) = [p] := by
    rw [arrivals, List.flatMap_append, List.flatMap_append]
    show arrivals events1 ++ [] ++ arrivals events4 = [p]
    rw [hnone, harr4]
    rfl
  have hinv := Inv.of_path hnodup hpath4
  have hthread : s4.decoder n = .running d .idle [] := Function.update_self ..
  have hbatch : (r4.batch n).map PacketBuffer.datagram = [p] := by
    have hfilter : [p].filter (GoesTo rcfg n) = [p] :=
      List.filter_cons_of_pos (p := fun q => decide (GoesTo rcfg n q)) (decide_eq_true hgoes)
    have hpushed := hinv.reader.sorts.settled hphase4 n
    have hdecoded := hinv.decoded n hn
    rw [hthread, hpushed, hreader, harrived, decodedBy_append, decodedBy_append, decodedBy_map,
      decodedBy_map, hfilter] at hdecoded
    exact hdecoded
  obtain ⟨b, hb, hdatagram⟩ := List.map_eq_singleton_iff.mp hbatch
  refine ⟨_, _, d, b, hpath4.concat (.wait hthread), ?_, ?_, congrArg UdpDatagram.data hdatagram, hphase4, ?_,
    hmirrors, rfl, rfl, rfl, congrArg BufferPool.pool (Function.update_self ..)⟩
  · rw [readerEvents_append, hreader]
    exact (congrArg arrivals (List.append_nil _)).trans harrived
  · rw [framesHandled_append, framesHandled_append, framesHandled_append, framesHandled_map,
      framesHandled_map]
    rfl
  · rw [← hb]
    exact Function.update_idem _ _ _

variable (rcfg n T heap) in
/-- **A frame goes all the way** to the TAP writer; the decoder then wants a new buffer for the next one. -/
theorem exists_handled (hlib : LosslessLib T) (hf : f.First T)
    {available : List Nat} (heap' : Nat → PacketBuffer T.B) (tap_writer : TapWriter)
    (source : SockaddrStorage) (hnodup : available.Nodup)
    (hlen : SETH_MAX_RECVMM_MESSAGES + 3 ≤ available.length) (hhost : rcfg.host = T.host)
    (hn : n ∈ rcfg.remote_nodes) (hkey : get_key_from_sockaddr source = some n)
    (hfamily : source.size = rcfg.name_size) :
    ∃ (events : List (ReceiveEvent T.B)) (s : ReceiveSide H T.B) (d : PacketDecoder H T.B)
        (b : PacketBuffer T.B) (pos : Nat),
      StepPath (Step rcfg (T.decoder heap)) (.start heap' available tap_writer) events s ∧
      arrivals (readerEvents events) = [⟨(Datagram.single f).bytes T.host, source⟩] ∧
      (framesHandled events).map PacketBuffer.data = [f.frame] ∧
      s.reader.available_tx_buffer_pool.pool ≠ [] ∧ s.reader.phase = .receiving ∧
      s.decoder = Function.update (fun _ => .starting) n (.running d (.refill b false pos) []) ∧
      s.tap_write_pool.pool = [] ∧ s.buffers = [] ∧ s.handled = [] ∧ b.dataSize ≤ pos ∧
      (s.reader.decoder_pool n).pool = [] ∧ ∀ b ∈ framesHandled events, FromNode n b := by
  obtain ⟨place, hplaces⟩ := exists_places_single hf
  have hbounds := T.size_bounds
  have hshort := hf.short
  have hgoes : GoesTo rcfg n ⟨(Datagram.single f).bytes T.host, source⟩ :=
    ⟨hkey, hn, hhost ▸ Datagram.headerPasses (List.cons_ne_nil _ _) _⟩
  have hfit : ((Datagram.single f).bytes T.host).length ≤ T.B := by
    rw [Datagram.bytes_length, Datagram.single_size]
    omega
  obtain ⟨events1, s1, d1, b, hpath1, harr1, hnone1, hdata, hphase1, hthread1, hm, hpool1, hbuffers1, hhandled1, hqueue1⟩ :=
    exists_waiting heap [Datagram.single f] place heap' tap_writer hnodup hlen hfit hfamily hgoes
  have hfirst : [Datagram.single f][0]? = some (Datagram.single f) := rfl
  obtain ⟨s2, d2, out, pos, hpath2, hout, hthread2, hpool2, hphase2, hbuffers2, hhandled2, hend, hqueue2⟩ :=
    exists_pushed hlib hplaces (by rw [hthread1]; exact Function.update_self ..) hm hfirst rfl hdata
      (honest_of_new hm)
  rw [hthread1, Function.update_idem] at hthread2
  rw [hpool1] at hpool2
  -- the TAP writer
  let s3 : ReceiveSide H T.B := { s2 with tap_write_pool := ⟨[]⟩, buffers := [out] }
  have hwait : Step rcfg (T.decoder heap) s2 .silent s3 := by
    have hstep : Step rcfg (T.decoder heap) s2 .silent _ :=
      .tapWait (hbuffers2.trans hbuffers1) (hhandled2.trans hhandled1)
    rw [hpool2] at hstep
    exact hstep
  let s4 : ReceiveSide H T.B := { s3 with
    tap_writer := s3.tap_writer.handle true 0 out
    buffers := []
    handled := s3.handled ++ [out] }
  have hhandle : Step rcfg (T.decoder heap) s3 (.handled out) s4 := .tapHandle rfl
  have hback : Step rcfg (T.decoder heap) s4 .silent
      { s4 with reader := s4.reader.exchange (s4.reader.free ++ s4.handled), handled := [] } := .tapGiveBack rfl
  refine ⟨_, _, d2, b, pos, hpath1.append (hpath2.append (.cons hwait (.cons hhandle (.single hback)))), ?_, ?_,
    ?_, hphase2.trans hphase1, hthread2, rfl, rfl, rfl, hend, ?_, ?_⟩
  · rw [readerEvents_append]
    exact (congrArg arrivals (List.append_nil _)).trans harr1
  · rw [framesHandled_append, hnone1]
    exact congrArg (fun data => [data]) hout
  · intro hnil
    have hlast : s4.reader.free ++ s4.handled = [] := List.map_eq_nil_iff.mp hnil
    exact List.concat_ne_nil out _ (List.append_eq_nil_iff.mp hlast).2
  · show (s2.reader.decoder_pool n).pool = []
    rw [hqueue2, hqueue1]
  · have hfrom := (Sourced.of_path hnodup (hpath1.append hpath2)).frames n out (by
      rw [framesOf, List.flatMap_append]
      exact List.mem_append_right _ (by simp))
    rw [framesHandled_append, hnone1]
    exact List.forall_mem_singleton.mpr hfrom

end Decoder

/-! ## The results -/

/-- The encoding of three octets. -/
def octets : EncodedFrame (List (List UInt8)) := ⟨0, [1, 2, 3], COMPRESSED_LZ4, [48, 1, 2, 3], [], [[1, 2, 3]]⟩

theorem octets_first : octets.First (Tunnel.smallestLZ4 (.inet 58023 #v[192, 0, 2, 1])) :=
  ⟨⟨by decide, by decide, Or.inr ⟨by decide, rfl, by decide, by decide, by decide⟩⟩, rfl, rfl, by decide⟩

/-- Three octets go all the way, in the smallest configuration. -/
theorem exists_handled_octets {available : List Nat} (hnodup : available.Nodup)
    (hlen : SETH_MAX_RECVMM_MESSAGES + 3 ≤ available.length) :
    let n := mappedAddr #v[192, 0, 2, 1]
    let T := Tunnel.smallestLZ4 (.inet 58023 #v[192, 0, 2, 1])
    let rcfg : ReaderConfig := ⟨{n}, .little, 28, by decide, id⟩
    ∃ (events : List (ReceiveEvent T.B)) (s : ReceiveSide (List (List UInt8)) T.B),
      StepPath (Step rcfg (T.decoder fun _ => 0))
        (.start (fun _ => .ofData 0 [] (Nat.zero_le _)) available ⟨KeyedList.empty, [n], [], []⟩) events s ∧
      arrivals (readerEvents events) = [⟨(Datagram.single octets).bytes .little, .inet6 58023 0 n 0⟩] ∧
      (framesHandled events).map PacketBuffer.data = [[1, 2, 3]] ∧
      s.reader.available_tx_buffer_pool.pool ≠ [] := by
  intro n T rcfg
  obtain ⟨events, s, d, b, pos, hpath, harrived, hhandled, hfree, -⟩ :=
    exists_handled rcfg n T (fun _ => 0) (fun _ => StreamCompressor.literals_lossless _ _) octets_first
      (fun _ => .ofData 0 [] (Nat.zero_le _)) ⟨KeyedList.empty, [n], [], []⟩ (.inet6 58023 0 n 0) hnodup hlen rfl
      (Finset.mem_singleton_self n) rfl rfl
  exact ⟨events, s, hpath, harrived, hhandled, hfree⟩

section Results
variable {cfg : DecoderConfig H} {available : List Nat} {heap : Nat → PacketBuffer B} {tap_writer : TapWriter}
  {events : List (ReceiveEvent B)} {s : ReceiveSide H B}

/-- **No thread of the receiving half loses or duplicates a buffer**: whatever the threads did, in
whatever order, each buffer of the available pool is in one place, and a decoder has its
`dcomp_buffer`, and its `tx_buffer` but for when it waits for a new one. -/
theorem receive_side_conserves_buffers (h : available.Nodup)
    (hrun : StepPath (Step rcfg cfg) (ReceiveSide.start heap available tap_writer) events s) :
    places rcfg s = ↑available ∧ (places rcfg s).Nodup ∧ ∀ n, (s.decoder n).Equipped := by
  have hinv := Inv.of_path h hrun
  have hplaces := hinv.toOwned.places
  refine ⟨hplaces, ?_, hinv.equipped⟩
  rw [hplaces]
  exact Multiset.coe_nodup.mpr h

theorem receive_side_conserves_buffers_octets :
    let n := mappedAddr #v[192, 0, 2, 1]
    let T := Tunnel.smallestLZ4 (.inet 58023 #v[192, 0, 2, 1])
    let rcfg : ReaderConfig := ⟨{n}, .little, 28, by decide, id⟩
    ∃ (events : List (ReceiveEvent T.B)) (s : ReceiveSide (List (List UInt8)) T.B),
      (framesHandled events).map PacketBuffer.data = [[1, 2, 3]] ∧ places rcfg s = ↑(List.range 259) ∧
      (places rcfg s).Nodup ∧ ∀ n, (s.decoder n).Equipped := by
  intro n T rcfg
  obtain ⟨events, s, hrun, -, hhandled, -⟩ := exists_handled_octets (List.nodup_range (n := 259))
    (by rw [SETH_MAX_RECVMM_MESSAGES, List.length_range])
  exact ⟨events, s, hhandled, receive_side_conserves_buffers List.nodup_range hrun⟩

/-- **The threads hand everything on in order**, however they are interleaved. -/
theorem receive_side_in_order (h : available.Nodup)
    (hrun : StepPath (Step rcfg cfg) (ReceiveSide.start heap available tap_writer) events s) :
    InOrder rcfg events s :=
  (Inv.of_path h hrun).inOrder

theorem receive_side_in_order_octets :
    let n := mappedAddr #v[192, 0, 2, 1]
    let T := Tunnel.smallestLZ4 (.inet 58023 #v[192, 0, 2, 1])
    let rcfg : ReaderConfig := ⟨{n}, .little, 28, by decide, id⟩
    ∃ (events : List (ReceiveEvent T.B)) (s : ReceiveSide (List (List UInt8)) T.B),
      (framesHandled events).map PacketBuffer.data = [[1, 2, 3]] ∧ InOrder rcfg events s := by
  intro n T rcfg
  obtain ⟨events, s, hrun, -, hhandled, -⟩ := exists_handled_octets (List.nodup_range (n := 259))
    (by rw [SETH_MAX_RECVMM_MESSAGES, List.length_range])
  exact ⟨events, s, hhandled, receive_side_in_order List.nodup_range hrun⟩

end Results

end ReceiveSide

/-- **Through the receiving half**: when the numbers do not wrap, and the datagrams that come from the
address of a node are of those its encoder pushed, in their order, then whatever else comes in and
however all threads are interleaved, the TAP writer handles the frames of the node all of whose
datagrams came, in the order in which they were accepted, as long as no datagram makes LZ4 look back at what
other threads may have written over. -/
theorem receive_side_delivers (T : Tunnel H) (hlib : LosslessLib T) (heap : Nat → UInt8)
    {made : List (PacketBuffer T.B)} {encoder : PacketEncoder H T.B} {thread : EncoderThread T}
    {labels : List (List (PacketBuffer T.B))}
    (hstart : PacketEncoder.Starts T.libs T.packet_format 1 made encoder)
    (hsender : StepPath EncoderThread.Step (EncoderThread.start encoder) labels thread)
    {rcfg : ReaderConfig} {available : List Nat} {heap' : Nat → PacketBuffer T.B} {tap_writer : TapWriter}
    {events : List (ReceiveEvent T.B)} {s : ReceiveSide H T.B} (hnodup : available.Nodup)
    (hrun : StepPath (ReceiveSide.Step rcfg (T.decoder heap)) (.start heap' available tap_writer) events s)
    {n : In6Addr} (hn : n ∈ rcfg.remote_nodes) {js : List Nat}
    (hjs : js.Sublist (List.range thread.encoder.tx_buffer_pool.pool.length))
    (hwrap : thread.encoder.tx_buffer_pool.pool.length ≤ 4294967294)
    (harr : List.Forall₂ (fun j p => thread.encoder.tx_buffer_pool.pool[j]?.map PacketBuffer.data =
      some (UdpDatagram.data p)) js ((arrivals (readerEvents events)).filter (GoesTo rcfg n)))
    (honce : Lz4Once rcfg T heap n events) :
    ReceiveSide.Delivers rcfg n (thread.encoder.carriedBy js) events s := by
  have hidle := EncoderThread.idle_of_path (fun hn => (hlib hn).toCompressBounded) hstart hsender
  obtain ⟨ds, pending, c0, history, place, hem, hacc, hplaces, hend, -⟩ := hidle.places
  have hone : (PacketEncoder.nextSequence 1).toNat = 1 := rfl
  rw [hem.pool_length] at hwrap hjs
  have harr' : List.Forall₂ (OfStream T ds) js
      ((arrivals (readerEvents events)).filter (GoesTo rcfg n)) := by
    refine harr.imp fun j p hp => ?_
    rw [← List.getElem?_map, hem.pool, List.getElem?_map] at hp
    obtain ⟨D, hD, hbytes⟩ := Option.map_eq_some_iff.mp hp
    exact ⟨D, hD, hbytes.symm⟩
  rw [← hem.carriedBy_eq hplaces hend hacc hjs]
  exact ReceiveSide.delivers_of_places hlib hplaces hnodup hrun hn harr' honce
    (honest_of_sublist hplaces (by omega) hjs)

theorem receive_side_delivers_octets :
    let n := mappedAddr #v[192, 0, 2, 1]
    let T := Tunnel.smallestLZ4 (.inet 58023 #v[192, 0, 2, 1])
    let rcfg : ReaderConfig := ⟨{n}, .little, 28, by decide, id⟩
    ∃ (thread : EncoderThread T) (events : List (ReceiveEvent T.B)) (s : ReceiveSide (List (List UInt8)) T.B),
      (framesHandled events).map PacketBuffer.data = [[1, 2, 3]] ∧
      ReceiveSide.Delivers rcfg n (thread.encoder.carriedBy [0]) events s := by
  intro n T rcfg
  let frame : PacketBuffer T.B := .ofData 20 [1, 2, 3] (by decide)
  obtain ⟨⟨⟩, e, hrun, hsent⟩ := Call.exists_of_okAnd
    (p := fun e => e.tx_buffer_pool.pool.map PacketBuffer.data ==
      [(Datagram.single ReceiveSide.octets).bytes .little])
    (r := T.encoderRun 10 1 (PacketBuffer.fresh 0 10) [.encode frame, .flush]) (by decide +kernel)
  obtain ⟨e0, hstart, hpath⟩ := PacketEncoder.path_of_encoderRun hrun
  obtain ⟨e1, hencode, hpath⟩ := StepPath.cons_iff.mp hpath
  obtain ⟨e2, hflush, hpath⟩ := StepPath.cons_iff.mp hpath
  obtain rfl := StepPath.nil_iff.mp hpath
  have hthread : StepPath EncoderThread.Step (EncoderThread.start e0) [[frame], [], [], [], [], [], []]
      (⟨⟨[]⟩, e2, 0, .top⟩ : EncoderThread T) := by
    refine .cons (.arrival [frame]) (.cons (.items rfl (List.cons_ne_nil _ _)) ?_)
    refine .cons (.encode rfl hencode) (.cons (.encoded rfl) (.cons (.wait rfl rfl) ?_))
    exact .cons (.timeout rfl one_ne_zero) (.single (.flush rfl hflush))
  obtain ⟨events, s, hrun, harrived, hhandled, -⟩ := ReceiveSide.exists_handled_octets (List.nodup_range (n := 259))
    (by rw [SETH_MAX_RECVMM_MESSAGES, List.length_range])
  obtain ⟨b, hpool, hdata⟩ := List.map_eq_singleton_iff.mp (beq_iff_eq.mp hsent)
  refine ⟨_, events, s, hhandled, receive_side_delivers T (fun _ => StreamCompressor.literals_lossless _ _) _ hstart
    hthread List.nodup_range hrun (Finset.mem_singleton_self n) ?_ ?_ ?_ ?_⟩
  · rw [hpool]
    exact List.Sublist.refl _
  · rw [hpool, List.length_singleton]
    omega
  · rw [harrived, hpool]
    refine (List.forall₂_cons (a := 0)).mpr ⟨?_, .nil⟩
    exact congrArg some hdata
  · refine lz4Once_of_single (D := Datagram.single ReceiveSide.octets) rfl ReceiveSide.octets_first.valid ?_ n
    rw [harrived]
    exact List.forall_mem_singleton.mpr rfl

end SuperEthd
