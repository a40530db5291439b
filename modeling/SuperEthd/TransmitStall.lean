import SuperEthd.TransmitProgress

/-! # The transmitting half can stall

The reader and the encoders take from one pool, and the pools between them have no bound.  A call of an
encoder that hands its datagram on wants another buffer at once; when the reader is there first, with
frames enough to take all that the socket writer gives back, both wait for a buffer, and nobody will
ever give one back. -/
namespace SuperEthd
open PacketHeaderOptionFormatType PacketEncoder

variable {H : Type} {B : Nat}

/-- A call that waits does not go on while no buffer is free. -/
theorem PacketEncoder.not_resume_of_exhausted {cfg : EncoderConfig} {fuel : Nat} {w : EncoderWait B}
    {wait : Option (EncoderWait B)} {e e' : PacketEncoder H B} (hpool : e.available_buffer_pool.pool = []) :
    (resume cfg fuel w).run e ≠ .ok wait e' := by
  intro hrun
  obtain ⟨_, e1, hget, -⟩ := Call.run_bind_eq_ok.mp hrun
  have hblocked : (_getTxBuffer : EncoderCall H B Unit).run e = .error .blocked e := by
    simp [_getTxBuffer, BufferPool.pop_wait, hpool]
  cases hblocked.symm.trans hget

namespace TransmitSide
variable {T : Tunnel H} {addr : In6Addr → SockaddrStorage} {expire_time : Int} {available : List (PacketBuffer T.B)}
  {s s' : TransmitSide H T.B} {event : TransmitEvent T.B} {events : List (TransmitEvent T.B)} {n : In6Addr}

/-- No thread will ever route or send anything: all that is left are steps that nobody sees. -/
def Stalled (T : Tunnel H) (addr : In6Addr → SockaddrStorage) (expire_time : Int) (s : TransmitSide H T.B) : Prop :=
  ∀ events s', StepPath (Step T addr expire_time) s events s' → ∀ event ∈ events, event = .silent

/-- **Deadlock**: the reader wants a buffer, and so do the encoders; nobody has one to give back. -/
structure Deadlocked (s : TransmitSide H B) : Prop where
  reader : s.switch.tap_read = .reading none
  outside : s.broadcast = none
  available : s.switch.available_rx_buffer_pool.pool = []
  encoder : ∀ n, s.encoder n = .starting ∨ ∃ e timeout point w, s.encoder n = .running e timeout point (some w)
  writer : ∀ n, s.writer n = ⟨⟨[]⟩, [], []⟩

/-- A thread that waits for a buffer is in no other place. -/
theorem Deadlocked.not_running (h : Deadlocked s) {e : PacketEncoder H T.B} {timeout : Nat} {point : EncoderPoint T.B} :
    s.encoder n ≠ .running e timeout point none := by
  intro hthread
  rcases h.encoder n with hstarting | ⟨e', timeout', point', w, hwaits⟩
  · cases hstarting.symm.trans hthread
  · cases hwaits.symm.trans hthread

/-- **One step** from a deadlock is silent, and leads nowhere. -/
theorem Deadlocked.step (h : Deadlocked s) (hstep : Step T addr expire_time s event s') :
    event = .silent ∧ Deadlocked s' := by
  cases hstep with
  | learn turn =>
    cases turn with
    | dropped reader | found reader | missed reader | added reader => cases h.reader.symm.trans reader
    | others => exact ⟨rfl, h.reader, h.outside, h.available, h.encoder, h.writer⟩
  | pop reader pop =>
    rw [BufferPool.pop_wait, h.available] at pop
    cases pop
  | unicast reader => cases h.reader.symm.trans reader
  | multicast reader => cases h.reader.symm.trans reader
  | branch inside => cases h.outside.symm.trans inside
  | back inside => cases h.outside.symm.trans inside
  | construct node thread pop =>
    rw [BufferPool.pop_wait, h.available] at pop
    cases pop
  | @constructed n comp_buffer e thread =>
    rcases h.encoder n with hstarting | ⟨e', timeout', point', w, hwaits⟩
    · cases hstarting.symm.trans thread
    · cases hwaits.symm.trans thread
  | items thread | wait thread | wake thread | timeout thread | flush thread | encode thread | encoded thread =>
    exact absurd thread h.not_running
  | resume thread run => exact absurd run (not_resume_of_exhausted h.available)
  | @writerWait n buffers sent =>
    refine ⟨rfl, h.reader, h.outside, h.available, h.encoder, fun m => ?_⟩
    by_cases hm : m = n
    · rw [hm, write_self, h.writer n]
    · exact (Function.update_of_ne hm ..).trans (h.writer m)
  | @send n datagram rest buffers =>
    rw [h.writer n] at buffers
    cases buffers
  | @giveBack n buffers =>
    refine ⟨rfl, h.reader, h.outside, ?_, h.encoder, fun m => ?_⟩
    · show s.switch.available_rx_buffer_pool.pool ++ (s.writer n).sent = []
      rw [h.available, h.writer n]
      rfl
    · by_cases hm : m = n
      · subst hm
        refine (Function.update_self ..).trans ?_
        rw [h.writer m]
      · exact (Function.update_of_ne hm ..).trans (h.writer m)

/-- A deadlock is for ever. -/
theorem Deadlocked.stalled (h : Deadlocked s) : Stalled T addr expire_time s :=
  fun _ _ hrun => hrun.forall_labels (fun _ _ _ h hstep => h.step hstep) h

/-! ## The way there -/

/-- **A drained encoder thread that encodes a frame comes to wait for a buffer**, in that call or when it
flushes; then it has pushed a datagram. -/
theorem exists_waiting (hlib : Bounded T)
    (hrun : StepPath (Step T addr expire_time) (.start [n] available) events s) (hrest : AtRest n s)
    {e : PacketEncoder H T.B} {timeout : Nat} (hthread : s.encoder n = .running e timeout .waiting none)
    (hdrained : EncoderThread.Drained e) {buffer : PacketBuffer T.B}
    (hqueue : (s.switch.encoder_pool n).pool = [buffer]) (hsmall : buffer.dataSize ≤ T.l2mtu) :
    ∃ more s', StepPath (Step T addr expire_time) s (List.replicate more .silent) s' ∧ AtRest n s' ∧
      (∃ e' timeout' point w, s'.encoder n = .running e' timeout' point (some w) ∧ point.buffers = []) ∧
      (s'.switch.encoder_pool n).pool = [] ∧ (s'.writer n).socket_write_pool.pool ≠ [] := by
  have hmod : ¬buffer.dataSize % 65536 > (T.to (addr n)).encoder.l2mtu := fun hlarge =>
    absurd ((Nat.mod_le buffer.dataSize 65536).trans hsmall) (Nat.not_le.mpr hlarge)
  have hthrough : ∀ {events s}, StepPath (Step T addr expire_time) (.start [n] available) events s →
      Through (T.to (addr n)) n events s := fun hrun =>
    Through.of_path (List.nodup_singleton n) (List.cons_ne_nil _ _) hrun n
  have hpushed_ne : ∀ {s : TransmitSide H T.B} {thread pool} {datagrams : List (PacketBuffer T.B)}, datagrams ≠ [] →
      ((s.settle n thread pool datagrams).writer n).socket_write_pool.pool ≠ [] := by
    intro s thread pool datagrams hne heq
    rw [settle_pushed] at heq
    exact hne (List.append_eq_nil_iff.mp heq).2
  -- the call
  let s1 := s.take n e timeout
  have hencoder1 : s1.encoder n = .running e timeout (.batch [buffer]) none := by
    rw [← hqueue]
    exact Function.update_self ..
  have hqueue1 : (s1.switch.encoder_pool n).pool = [] := congrArg BufferPool.pool (Function.update_self ..)
  have hpath1 := hrun.concat (.wake hthread)
  have hidle1 : Idle (T.to (addr n)) 1 (s1.lend e) := EncoderThread.idle_of_available
    ((hthrough hpath1).idle (T := T.to (addr n)) hlib hencoder1) s1.switch.available_rx_buffer_pool
  obtain ⟨fuel, wait, e', datagrams, hcall, hpushed, hsome⟩ :=
    hidle1.exists_startTurn (T := T.to (addr n)) hlib (.encode buffer)
  let s2 := s1.settle n (behind e' timeout (.batch []) wait) e'.available_buffer_pool datagrams
  have hstep1 : Step T addr expire_time s .silent s1 := .wake hthread
  have hstep2 : Step T addr expire_time s1 .silent s2 := .encode hencoder1 hcall hpushed
  have hencoder2 : s2.encoder n = behind e' timeout (.batch []) wait := Function.update_self ..
  have hrest2 : AtRest n s2 := ⟨hrest.reader, hrest.outside, hrest.remote_nodes, hrest.learns⟩
  cases wait with
  | some w =>
    exact ⟨2, s2, .cons hstep1 (.single hstep2), hrest2, ⟨e', timeout, .batch [], w, hencoder2, rfl⟩, hqueue1,
      hpushed_ne (hsome rfl)⟩
  | none =>
    -- the frame is in `tx_buffer`, so that the flush has a datagram to push
    obtain ⟨tx, htx, h8⟩ := hdrained.tx_buffer
    have hlent : Loaded PacketHeader.size (s1.lend e) := ⟨tx, htx, h8.ge⟩
    have hloaded := (startTurn_loaded hmod).ok hlent hcall rfl
    let s3 := s2.goOn n (.running e' 1 .top none)
    have hencoder3 : s3.encoder n = .running e' 1 .top none := Function.update_self ..
    let s4 := s3.goOn n (.running e' 1 .waiting none)
    have hencoder4 : s4.encoder n = .running e' 1 .waiting none := Function.update_self ..
    let s5 := s4.goOn n (.running e' 1 .timedOut none)
    have hencoder5 : s5.encoder n = .running e' 1 .timedOut none := Function.update_self ..
    have hpath5 : StepPath (Step T addr expire_time) s (List.replicate 5 .silent) s5 :=
      .cons hstep1 (.cons hstep2 (.cons (.encoded hencoder2) (.cons (.wait hencoder3 hqueue1)
        (.single (.timeout hencoder4 one_ne_zero)))))
    have hidle5 : Idle (T.to (addr n)) 1 (s5.lend e') := EncoderThread.idle_of_available
      ((hthrough (hrun.append hpath5)).idle (T := T.to (addr n)) hlib hencoder5) s5.switch.available_rx_buffer_pool
    obtain ⟨fuel', wait', e6, datagrams', hflush, hpushed', hsome'⟩ :=
      hidle5.exists_startTurn (T := T.to (addr n)) hlib .flush
    obtain rfl := startTurn_flush_waits (by decide) hloaded hflush
    let s6 := s5.settle n (.running e6 1 .timedOut (some .flush)) e6.available_buffer_pool datagrams'
    have hencoder6 : s6.encoder n = .running e6 1 .timedOut (some .flush) := Function.update_self ..
    exact ⟨6, s6, hpath5.concat (.flush hencoder5 hflush hpushed'),
      ⟨hrest.reader, hrest.outside, hrest.remote_nodes, hrest.learns⟩, ⟨e6, 1, .timedOut, .flush, hencoder6, rfl⟩,
      hqueue1, hpushed_ne (hsome' rfl)⟩

/-! ## The result -/

end TransmitSide
end SuperEthd
