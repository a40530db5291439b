import SuperEthd.ReceiveRuns

/-! # The receiving half can stall

The reader, the decoders and the TAP writer take from one pool, and the pools between them have no
bound.  When the datagrams that wait for a decoder are all the buffers there are, the reader waits for
a buffer to receive into and the decoder for one to push its next frame from, and neither will ever
give one back. -/
namespace SuperEthd
open PacketDecoder

variable {H : Type} {B : Nat}

namespace SocketReader
variable {rcfg : ReaderConfig} {r r' : SocketReader B} {event : ReaderEvent} {n : In6Addr} {p : UdpDatagram}

/-- With datagrams enough the reader takes every free buffer, and wants one more. -/
theorem exists_own_exhausted {pool : List Nat}
    (h : ∃ arrived pushed, Inv rcfg arrived pushed r) (hphase : r.phase = .receiving)
    (hpool : r.available_tx_buffer_pool.pool = pool) (hlen : p.data.length ≤ B)
    (hfamily : p.source.size = rcfg.name_size) (hgoes : GoesTo rcfg n p) :
    ∃ events r', StepPath (Own rcfg) r events r' ∧ arrivals events = List.replicate (pool.length + 1) p ∧
      r'.phase = .replenishing 0 1 ∧ r'.available_tx_buffer_pool.pool = [] := by
  induction pool generalizing r with
  | nil =>
    obtain ⟨arrived, pushed, hinv⟩ := h
    obtain ⟨events, r', hpath, harr, hphase', hsame⟩ := exists_own_queued hinv hphase hlen hfamily hgoes
    exact ⟨events, r', hpath, harr, hphase', hsame ▸ hpool⟩
  | cons a pool ih =>
    obtain ⟨arrived, pushed, hinv⟩ := h
    obtain ⟨events1, r1, hpath1, harr1, hphase1, hpool1⟩ :=
      exists_own_round hinv hphase hpool hlen hfamily hgoes
    have hinv1 : ∃ arrived pushed, Inv rcfg arrived pushed r1 := by
      refine hpath1.invariant (I := fun r => ∃ arrived pushed, Inv rcfg arrived pushed r) ?_ ⟨_, _, hinv⟩
      rintro r event r' ⟨arrived, pushed, h⟩ hown
      exact ⟨_, _, h.step hown.1⟩
    obtain ⟨events2, r2, hpath2, harr2, hphase2, hpool2⟩ := ih hinv1 hphase1 hpool1
    refine ⟨_, r2, hpath1.append hpath2, ?_, hphase2, hpool2⟩
    rw [arrivals, List.flatMap_append]
    show arrivals events1 ++ arrivals events2 = _
    rw [harr1, harr2, List.length_cons]
    rfl

/-- A reader that waits for a buffer does nothing of its own. -/
theorem not_own_of_waiting {i num_received : Nat} (hphase : r.phase = .replenishing i num_received)
    (hpool : r.available_tx_buffer_pool.pool = []) : ¬Own rcfg r event r' := by
  rintro ⟨hstep, hown⟩
  cases hstep with
  | filled phase => cases hphase.symm.trans phase
  | ready phase => cases hphase.symm.trans phase
  | stopped phase => cases hphase.symm.trans phase
  | received phase => cases hphase.symm.trans phase
  | dropped phase => cases hphase.symm.trans phase
  | queued phase => cases hphase.symm.trans phase
  | replenished phase pop =>
    rw [BufferPool.pop_wait, hpool] at pop
    cases pop
  | handled phase => cases hphase.symm.trans phase
  | pushed phase => cases hphase.symm.trans phase
  | again phase => cases hphase.symm.trans phase
  | others _ _ phase => exact hown phase

end SocketReader

namespace ReceiveSide
variable {rcfg : ReaderConfig} {cfg : DecoderConfig H} {s s' : ReceiveSide H B} {event : ReceiveEvent B}
  {events : List (ReceiveEvent B)}

/-- No thread will ever receive, decode or write anything: all that is left are steps that nobody sees. -/
def Stalled (rcfg : ReaderConfig) (cfg : DecoderConfig H) (s : ReceiveSide H B) : Prop :=
  ∀ events s', StepPath (Step rcfg cfg) s events s' → ∀ event ∈ events, event = .silent

/-- **Deadlock**: the reader wants a buffer, and so do the decoders; nobody has one to give back. -/
structure Deadlocked (s : ReceiveSide H B) : Prop where
  reader : ∃ i num_received, s.reader.phase = .replenishing i num_received
  available : s.reader.available_tx_buffer_pool.pool = []
  decoder : ∀ n, s.decoder n = .starting ∨ (∃ dcomp_buffer, s.decoder n = .constructing dcomp_buffer) ∨
    ∃ d packetBuffer assembled pos buffers, s.decoder n = .running d (.refill packetBuffer assembled pos) buffers
  tap_write_pool : s.tap_write_pool.pool = []
  buffers : s.buffers = []
  handled : s.handled = []

theorem Deadlocked.free (h : Deadlocked s) : s.reader.free = [] := by
  rw [SocketReader.free, h.available, List.map_nil]

/-- **One step** from a deadlock is silent, and leads nowhere. -/
theorem Deadlocked.step (h : Deadlocked s) (hstep : Step rcfg cfg s event s') :
    event = .silent ∧ Deadlocked s' := by
  cases hstep with
  | reader turn own =>
    obtain ⟨i, num_received, hphase⟩ := h.reader
    exact absurd ⟨turn, own⟩ (SocketReader.not_own_of_waiting hphase h.available)
  | construct node thread pop =>
    have hfree : s.reader.free = _ := BufferPool.pool_of_pop_wait pop
    exact absurd (h.free.symm.trans hfree) (List.cons_ne_nil _ _).symm
  | constructed thread run =>
    obtain ⟨tx, rest, hfree, -⟩ := constructed_eq run
    exact absurd (h.free.symm.trans hfree) (List.cons_ne_nil _ _).symm
  | @wait n d thread =>
    rcases h.decoder n with hthread | ⟨_, hthread⟩ | ⟨d', packetBuffer, assembled, pos, buffers, hthread⟩
    · cases hthread.symm.trans thread
    · cases hthread.symm.trans thread
    · cases hthread.symm.trans thread
  | @decode n d phase buffers frames event t thread turn own first pushed =>
    rcases h.decoder n with hthread | ⟨_, hthread⟩ | ⟨d', packetBuffer, assembled, pos, buffers, hthread⟩
    · cases hthread.symm.trans thread
    · cases hthread.symm.trans thread
    · obtain ⟨rfl, rfl, rfl⟩ := DecoderThread.running.inj (hthread.symm.trans thread)
      cases turn with
      | refilled run =>
        -- `pop_wait` does not return
        rcases refill_run cfg assembled (s.lend d') with hb | ⟨b, rest, hpool, -⟩
        · rw [hb] at run
          cases run
        · exact absurd (h.free.symm.trans hpool) (List.cons_ne_nil _ _).symm
      | take => exact absurd rfl own
      | giveBack => exact absurd rfl own
      | pop => exact absurd rfl own
      | overwrite => exact absurd rfl own
  | tapWait => exact ⟨rfl, h.reader, h.available, h.decoder, rfl, h.tap_write_pool, h.handled⟩
  | tapHandle buffers =>
    rw [h.buffers] at buffers
    cases buffers
  | tapGiveBack =>
    refine ⟨rfl, h.reader, ?_, h.decoder, h.tap_write_pool, h.buffers, rfl⟩
    show (s.reader.free ++ s.handled).map PacketBuffer.id = []
    rw [h.free, h.handled]
    rfl
  | learning => exact ⟨rfl, h.reader, h.available, h.decoder, h.tap_write_pool, h.buffers, h.handled⟩

/-- A deadlock is for ever. -/
theorem Deadlocked.stalled (h : Deadlocked s) : Stalled rcfg cfg s :=
  fun _ _ hrun => hrun.forall_labels (fun _ _ _ h hstep => h.step hstep) h

/-- **The receiving half can stall for good**: from every pool there is a run in which each datagram is
the same, as an encoder makes it, and only the first is decoded and written; then the threads wait for each
other's buffers, and from then on, whatever they do and whatever comes in, nothing is received, decoded or
written. -/
theorem receive_side_can_stall (T : Tunnel H) (hlib : LosslessLib T) (heap : Nat → UInt8)
    {f : EncodedFrame H} (hf : f.First T) {available : List Nat} (heap' : Nat → PacketBuffer T.B)
    (tap_writer : TapWriter) {n : In6Addr} {source : SockaddrStorage} (hnodup : available.Nodup)
    (hlen : SETH_MAX_RECVMM_MESSAGES + 3 ≤ available.length) (hhost : rcfg.host = T.host)
    (hn : n ∈ rcfg.remote_nodes) (hkey : get_key_from_sockaddr source = some n)
    (hfamily : source.size = rcfg.name_size) :
    ∃ events s more, StepPath (Step rcfg (T.decoder heap)) (.start heap' available tap_writer) events s ∧
      arrivals (readerEvents events) =
        List.replicate (more + 2) ⟨(Datagram.single f).bytes T.host, source⟩ ∧
      (framesHandled events).map PacketBuffer.data = [f.frame] ∧ Deadlocked s ∧
      Stalled rcfg (T.decoder heap) s := by
  obtain ⟨events1, s1, d, b, pos, hpath1, harr1, hframe, -, hphase1, hthread, htap, hbuffers, hhandled, -⟩ :=
    exists_handled rcfg n T heap hlib hf heap' tap_writer source hnodup hlen hhost hn hkey hfamily
  have hbounds := T.size_bounds
  have hshort := hf.short
  have hgoes : GoesTo rcfg n ⟨(Datagram.single f).bytes T.host, source⟩ :=
    ⟨hkey, hn, hhost ▸ Datagram.headerPasses (List.cons_ne_nil _ _) _⟩
  have hfit : ((Datagram.single f).bytes T.host).length ≤ T.B := by
    rw [Datagram.bytes_length, Datagram.single_size]
    omega
  obtain ⟨events2, r2, hpath2, harr2, hphase2, hpool2⟩ := SocketReader.exists_own_exhausted
    ⟨_, _, (Inv.of_path hnodup hpath1).reader⟩ hphase1 rfl hfit hfamily hgoes
  let s2 : ReceiveSide H T.B := { s1 with reader := r2 }
  have hdead : Deadlocked s2 := by
    refine ⟨⟨0, 1, hphase2⟩, hpool2, fun m => ?_, htap, hbuffers, hhandled⟩
    rw [hthread]
    by_cases hm : m = n
    · exact Or.inr (Or.inr ⟨d, b, false, pos, [], hm ▸ Function.update_self ..⟩)
    · exact Or.inl (Function.update_of_ne hm ..)
  refine ⟨_, s2, s1.reader.available_tx_buffer_pool.pool.length, hpath1.append (path_of_own hpath2), ?_, ?_,
    hdead, hdead.stalled⟩
  · rw [readerEvents_append, readerEvents_map, arrivals, List.flatMap_append]
    show arrivals (readerEvents events1) ++ arrivals events2 = _
    rw [harr1, harr2]
    rfl
  · rw [framesHandled_append, framesHandled_map, List.append_nil]
    exact hframe

theorem receive_side_can_stall_octets :
    let n := mappedAddr #v[192, 0, 2, 1]
    let T := Tunnel.smallestLZ4 (.inet 58023 #v[192, 0, 2, 1])
    let rcfg : ReaderConfig := ⟨{n}, .little, 28, by decide, id⟩
    ∃ (events : List (ReceiveEvent T.B)) (s : ReceiveSide (List (List UInt8)) T.B) (more : Nat),
      StepPath (Step rcfg (T.decoder fun _ => 0)) (.start (fun _ => .ofData 0 [] (Nat.zero_le _))
        (List.range 5000) ⟨KeyedList.empty, [n], [], []⟩) events s ∧
      arrivals (readerEvents events) =
        List.replicate (more + 2) ⟨(Datagram.single octets).bytes .little, .inet6 58023 0 n 0⟩ ∧
      (framesHandled events).map PacketBuffer.data = [[1, 2, 3]] ∧ Deadlocked s ∧
      Stalled rcfg (T.decoder fun _ => 0) s := by
  intro n T rcfg
  exact receive_side_can_stall T (fun _ => StreamCompressor.literals_lossless _ _) _ octets_first _ _
    List.nodup_range (by rw [SETH_MAX_RECVMM_MESSAGES, List.length_range]; omega) rfl
    (Finset.mem_singleton_self n) rfl rfl

end ReceiveSide
end SuperEthd
