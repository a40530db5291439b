import SuperEthd.ReceiveRuns
import SuperEthd.SizeDiscipline

/-! # The receiving half goes on

Whatever datagrams come in, no thread of the receiving half throws, and none waits while a buffer is
free: `pop_wait` on the available pool is all that keeps a thread from its next step. -/
namespace SuperEthd
open PacketDecoder

variable {H : Type} {B : Nat}

namespace SocketReader
variable {rcfg : ReaderConfig} {r r' : SocketReader B} {event : ReaderEvent} {arrived : List UdpDatagram}
  {pushed : In6Addr → List UdpDatagram}

/-- The reader sets no slot up that is not there. -/
def Bounded (r : SocketReader B) : Prop :=
  ∀ i, r.phase = .filling i → i ≤ SETH_MAX_RECVMM_MESSAGES

theorem Bounded.step (h : Bounded r) (hstep : Step rcfg r event r') : Bounded r' := by
  intro i hphase
  cases hstep with
  | filled _ more => cases hphase; exact more
  | others _ _ phase => exact h i (phase.symm.trans hphase)
  | ready | stopped | received | dropped | queued | replenished | handled | pushed | again => cases hphase

/-- **The reader goes on** until it is stopped, while a buffer is free. -/
theorem Inv.exists_own (h : Inv rcfg arrived pushed r) (hbounded : Bounded r) (hnot : r.phase ≠ .stopped)
    (hpool : r.available_tx_buffer_pool.pool ≠ []) : ∃ event r', Own rcfg r event r' := by
  obtain ⟨a, rest, hcons⟩ := List.exists_cons_of_ne_nil hpool
  have hpop : r.available_tx_buffer_pool.pop_wait = .ok (a, ⟨rest⟩) := by
    rw [BufferPool.pop_wait, hcons]
  have hok := h.phase
  cases hphase : r.phase with
  | filling i =>
    rcases Nat.lt_or_eq_of_le (hbounded i hphase) with hlt | rfl
    · exact ⟨_, _, .of_phase rcfg (.filled hphase hlt hpop) hphase rfl (by simp)⟩
    · exact ⟨_, _, .of_phase rcfg (.ready hphase) hphase rfl (by simp)⟩
  | receiving =>
    have hnone : ∀ i (hi : i < ([] : List UdpDatagram).length),
        ([] : List UdpDatagram)[i].data.length ≤ (r.slots i).iov_len := fun i hi => absurd hi (Nat.not_lt_zero i)
    have hfamily : ∀ p ∈ ([] : List UdpDatagram), p.source.size = rcfg.name_size :=
      fun p hp => absurd hp List.not_mem_nil
    exact ⟨_, _, .of_phase rcfg (.received hphase (Nat.zero_le _) hnone hfamily) hphase rfl (by simp)⟩
  | stopped => exact absurd hphase hnot
  | handling i num_received =>
    rw [hphase] at hok
    rcases Nat.lt_or_eq_of_le hok.1 with hlt | rfl
    · obtain ⟨hcount, hready, before, batch, -, hlen, -, hholds⟩ := hok.2
      obtain ⟨a, ha⟩ := hready i (by omega)
      rcases handle_run rcfg ha.buffer (hholds i (by omega) le_rfl) with
        ⟨n, b, -, -, hrun⟩ | ⟨-, heap, -, hrun⟩
      · exact ⟨_, _, .of_phase rcfg (.queued hphase hlt hrun) hphase rfl (by simp)⟩
      · exact ⟨_, _, .of_phase rcfg (.dropped hphase hlt hrun) hphase rfl (by simp)⟩
    · exact ⟨_, _, .of_phase rcfg (.handled hphase (List.Perm.refl _)) hphase rfl (by simp)⟩
  | replenishing i num_received =>
    exact ⟨_, _, .of_phase rcfg (.replenished hphase hpop) hphase rfl (by simp)⟩
  | pushing node_keys =>
    cases node_keys with
    | nil => exact ⟨_, _, .of_phase rcfg (.again hphase) hphase rfl (by simp)⟩
    | cons n node_keys =>
      have hpush : (r.decoder_pool n).pushBatch r.bufferSize (r.received_buffers.queue n) =
          .ok ⟨(r.decoder_pool n).pool ++ r.received_buffers.queue n⟩ := by
        rw [BufferPool.pushBatch, if_neg]
        simp [bufferSize]
      exact ⟨_, _, .of_phase rcfg (.pushed hphase hpush) hphase rfl (by simp)⟩

end SocketReader

/-! ## The decoders -/

namespace PacketDecoder
variable {cfg : DecoderConfig H} {d d' : PacketDecoder H B} {packetBuffer : PacketBuffer B}

/-- There is a `tx_buffer`, and it is empty when no part is pending. -/
def Roomy (d : PacketDecoder H B) : Prop := ∃ tx, d.tx_buffer = some tx ∧ (d.last_part = 0 → tx.dataSize = 0)

theorem Roomy.cleared (h : d.tx_buffer.isSome) : d.cleared.Roomy := by
  obtain ⟨tx, htx⟩ := Option.isSome_iff_exists.mp h
  exact ⟨tx.clear, congrArg (Option.map PacketBuffer.clear) htx, fun _ => rfl⟩

theorem Roomy.isSome (h : d.Roomy) : d.tx_buffer.isSome := by
  obtain ⟨tx, htx, -⟩ := h
  rw [htx]
  rfl

theorem Roomy.sizesOk (h : d.Roomy) (hlibs : LibsBounded cfg B) : SizesOk cfg d := by
  obtain ⟨tx, htx, h0⟩ := h
  refine ⟨hlibs, fun tx' hlast htx' => ?_⟩
  obtain rfl := Option.some.inj (htx.symm.trans htx')
  exact h0 hlast

/-- **A header** keeps room. -/
theorem Roomy.opened {r : Option Nat} (h : d.Roomy) (ho : Opened cfg packetBuffer d r d') : d'.Roomy := by
  have harrived : ∀ sequence, (d.arrived cfg sequence).Roomy := by
    intro sequence
    unfold PacketDecoder.arrived
    split
    · exact h
    · exact Roomy.cleared h.isSome
  cases ho with
  | short =>
    obtain ⟨tx, htx, -⟩ := h
    exact ⟨tx.clear, congrArg (Option.map PacketBuffer.clear) htx, fun _ => rfl⟩
  | refused _ hd1 =>
    rcases hd1 with rfl | rfl
    · exact Roomy.cleared h.isSome
    · exact Roomy.cleared (harrived _).isSome
  | passed => exact harrived _

/-- **An option** keeps room, unless it delivers a frame. -/
theorem Roomy.outcome {pos : Nat} {flag : Bool} {option : PacketHeaderOption} {tx : PacketBuffer B}
    {r : Progress} (h : d.Roomy) (ho : Outcome cfg packetBuffer pos flag option tx d r d') :
    match r with
    | .refused | .onto _ _ => d'.Roomy
    | .delivered _ _ => True := by
  cases ho with
  | refused htried =>
    obtain ⟨-, -, tx1, dc1, -, -, htx1, -⟩ := htried.buffers
    exact Roomy.cleared (htx1 ▸ rfl)
  | ignored => exact h
  | skipped => exact Roomy.cleared h.isSome
  | @kept payload tx' htype hpart hcomplete hun =>
    -- a part has a number, which is not zero
    refine ⟨tx', rfl, fun h0 => ?_⟩
    simp only [unusable, Bool.or_eq_false_iff, bne_eq_false_iff_eq] at hun
    have h1 : option.part.toNat = 0 := congrArg UInt8.toNat h0
    omega
  | delivered => trivial

variable (cfg) in
/-- `refill` does not wait while a buffer is free. -/
theorem exists_refill (assembled : Bool) (hpool : d.available_buffer_pool.pool ≠ []) :
    ∃ d', (refill cfg assembled).run d = .ok () d' ∧ d'.tx_buffer_pool = d.tx_buffer_pool := by
  rcases _getTxBuffer_run (d := d) with ⟨hnone, -⟩ | ⟨b, rest, -, hrun⟩
  · exact absurd hnone hpool
  · have hrest : ∀ d1 : PacketDecoder H B, ∃ d', (if assembled then _flushInflight cfg else pure ()).run d1 =
        .ok () d' ∧ d'.tx_buffer_pool = d1.tx_buffer_pool := by
      intro d1
      cases assembled with
      | true => exact ⟨d1.flushed cfg, _flushInflight_run, rfl⟩
      | false => exact ⟨d1, rfl, rfl⟩
    obtain ⟨d', hd', hsame⟩ := hrest _
    exact ⟨d', (Call.run_bind_of_ok hrun).trans hd', hsame⟩

end PacketDecoder

/-- The decoder has room where its thread is to use it. -/
def Phase.Roomy (d : PacketDecoder H B) : Phase B → Prop
  | .refill _ _ _ => True
  | _ => d.Roomy

namespace Threads
variable {cfg : DecoderConfig H} {t t' : Threads H B} {event : Event B}

/-- **A step of any thread** leaves the decoder room. -/
theorem roomy_step (hequips : t.phase.Equips t.decoder) (h : t.phase.Roomy t.decoder)
    (hstep : Step cfg t event t') (hown : event ≠ .others) : t'.phase.Roomy t'.decoder := by
  cases hstep with
  | refused hrun =>
    obtain ⟨tx, htx⟩ := Option.isSome_iff_exists.mp hequips.1
    exact PacketDecoder.Roomy.opened h ((decodeHeader_meets (E := fun _ _ => True) htx).ok rfl hrun)
  | opened hrun =>
    obtain ⟨tx, htx⟩ := Option.isSome_iff_exists.mp hequips.1
    exact PacketDecoder.Roomy.opened h ((decodeHeader_meets (E := fun _ _ => True) htx).ok rfl hrun)
  | optionRefused hpos hrun =>
    obtain ⟨tx, htx⟩ := Option.isSome_iff_exists.mp hequips.1
    obtain ⟨dc, hdc⟩ := Option.isSome_iff_exists.mp hequips.2
    exact PacketDecoder.Roomy.outcome h ((takeOption_meets htx hdc).ok rfl hrun)
  | option hpos hrun =>
    obtain ⟨tx, htx⟩ := Option.isSome_iff_exists.mp hequips.1
    obtain ⟨dc, hdc⟩ := Option.isSome_iff_exists.mp hequips.2
    exact PacketDecoder.Roomy.outcome h ((takeOption_meets htx hdc).ok rfl hrun)
  | delivered => trivial
  | @refilled d d' packetBuffer assembled pos others hrun =>
    rcases refill_run cfg assembled d with hb | ⟨b, rest, -, hok⟩
    · rw [hb] at hrun
      cases hrun
    · rw [hok] at hrun
      obtain ⟨-, rfl⟩ := EStateM.Result.ok.inj hrun
      have hroomy : PacketDecoder.Roomy (cleared { d with
          tx_buffer := some b, available_buffer_pool := ⟨rest⟩ }) := PacketDecoder.Roomy.cleared rfl
      cases assembled <;> exact hroomy
  | @finished d d' packetBuffer pos flag others hpos hrun =>
    rw [finish_run] at hrun
    obtain ⟨-, rfl⟩ := EStateM.Result.ok.inj hrun
    cases flag <;> exact h
  | take => exact absurd rfl hown
  | giveBack => exact absurd rfl hown
  | pop => exact absurd rfl hown
  | overwrite => exact absurd rfl hown

/-- **The decoder goes on**, while a buffer is free, if there is something to decode. -/
theorem exists_step (hlibs : LibsBounded cfg B) (hequips : t.phase.Equips t.decoder)
    (h : t.phase.Roomy t.decoder) (hwork : t.phase = .idle → t.others ≠ [])
    (hpool : t.decoder.available_buffer_pool.pool ≠ []) :
    ∃ event t' frames, Step cfg t event t' ∧ event ≠ .others ∧ t.others = event.datagrams ++ t'.others ∧
      t'.decoder.tx_buffer_pool.pool = t.decoder.tx_buffer_pool.pool ++ frames := by
  obtain ⟨d, phase, others⟩ := t
  cases phase with
  | idle =>
    obtain ⟨b, rest, rfl⟩ := List.exists_cons_of_ne_nil (hwork rfl)
    obtain ⟨tx, htx⟩ := Option.isSome_iff_exists.mp hequips.1
    have hmeets : Call.Meets (· = d) (decodeHeader cfg b) (Opened cfg b d) (fun _ _ => False) :=
      decodeHeader_meets htx
    obtain ⟨r, d', hrun, ho⟩ | ⟨_, _, -, hfalse⟩ := hmeets.of_run rfl
    swap
    · exact hfalse.elim
    have hsame : d'.tx_buffer_pool.pool = d.tx_buffer_pool.pool ++ [] := by
      rw [ho.frames, List.append_nil]
    cases r with
    | none => exact ⟨_, _, [], .refused (l := []) hrun, nofun, rfl, hsame⟩
    | some pos => exact ⟨_, _, [], .opened (l := []) hrun, nofun, rfl, hsame⟩
  | options packetBuffer pos flag =>
    by_cases hpos : pos < packetBuffer.dataSize
    · obtain ⟨tx, htx⟩ := Option.isSome_iff_exists.mp hequips.1
      obtain ⟨dc, hdc⟩ := Option.isSome_iff_exists.mp hequips.2
      have hmeets : Call.Meets (· = d) (takeOption cfg packetBuffer pos flag) (Outcome cfg packetBuffer pos flag
          (optionAt cfg packetBuffer pos) tx d) (SizesBroken cfg d) := takeOption_meets htx hdc
      obtain ⟨r, d', hrun, ho⟩ | ⟨_, _, -, hbroken⟩ := hmeets.of_run rfl
      swap
      · exact absurd (PacketDecoder.Roomy.sizesOk h hlibs) hbroken
      obtain ⟨frames, hframes⟩ : ∃ frames, d'.tx_buffer_pool.pool = d.tx_buffer_pool.pool ++ frames := by
        rcases ho.frames with heq | ⟨-, -, frame, -, heq, -⟩
        · exact ⟨[], by rw [heq, List.append_nil]⟩
        · exact ⟨[frame], heq⟩
      cases r with
      | refused => exact ⟨_, _, frames, .optionRefused hpos hrun, nofun, rfl, hframes⟩
      | onto => exact ⟨_, _, frames, .option hpos hrun, nofun, rfl, hframes⟩
      | delivered => exact ⟨_, _, frames, .delivered hpos hrun, nofun, rfl, hframes⟩
    · have hrun : (finish cfg packetBuffer flag).run d = .ok () _ := finish_run flag
      refine ⟨_, _, [], .finished hpos hrun, nofun, rfl, ?_⟩
      rw [List.append_nil]
      cases flag <;> rfl
  | refill packetBuffer assembled pos =>
    obtain ⟨d', hok, hsame⟩ := exists_refill cfg assembled hpool
    refine ⟨_, _, [], .refilled hok, nofun, rfl, ?_⟩
    rw [List.append_nil, hsame]

end Threads

/-! ## The threads -/

namespace ReceiveSide
variable {rcfg : ReaderConfig} {cfg : DecoderConfig H} {s s' : ReceiveSide H B} {event : ReceiveEvent B}
  {events : List (ReceiveEvent B)} {available : List Nat} {heap : Nat → PacketBuffer B} {tap_writer : TapWriter}

/-- **Every thread goes on**: the reader until it is stopped, the constructor of a decoder, and a decoder with
what it has to decode. -/
structure GoesOn (rcfg : ReaderConfig) (cfg : DecoderConfig H) (s : ReceiveSide H B) : Prop where
  reader : s.reader.phase ≠ .stopped → ∃ event s', Step rcfg cfg s (.reader event) s'
  construct : ∀ n ∈ rcfg.remote_nodes, (∀ d phase buffers, s.decoder n ≠ .running d phase buffers) →
    ∃ s', Step rcfg cfg s .silent s' ∧ s'.decoder n ≠ s.decoder n
  decoder : ∀ n d phase buffers, s.decoder n = .running d phase buffers → (phase = .idle → buffers ≠ []) →
    ∃ datagrams frames s', Step rcfg cfg s (.decoded n datagrams frames) s'

/-- The reader and the decoders are where they can go on. -/
structure Ready (s : ReceiveSide H B) : Prop where
  reader : s.reader.Bounded
  decoder : ∀ n d phase buffers, s.decoder n = .running d phase buffers → phase.Roomy d

/-- The thread of a node moves. -/
theorem Ready.update {n : In6Addr} {d : PacketDecoder H B} {phase : Phase B} {buffers : List (PacketBuffer B)}
    (h : Ready s) (hreader : s'.reader.phase = s.reader.phase)
    (hdecoder : s'.decoder = Function.update s.decoder n (.running d phase buffers)) (hroomy : phase.Roomy d) :
    Ready s' := by
  refine ⟨fun i hi => h.reader i (hreader.symm.trans hi), fun m d' phase' buffers' hm => ?_⟩
  rw [hdecoder] at hm
  by_cases hmn : m = n
  · rw [hmn, Function.update_self] at hm
    obtain ⟨rfl, rfl, rfl⟩ := DecoderThread.running.inj hm
    exact hroomy
  · rw [Function.update_of_ne hmn] at hm
    exact h.decoder m d' phase' buffers' hm

/-- **One step** of any thread. -/
theorem Ready.step (h : Ready s) (hinv : Inv rcfg available events s) (hstep : Step rcfg cfg s event s') :
    Ready s' := by
  cases hstep with
  | reader turn own => exact ⟨h.reader.step turn, h.decoder⟩
  | @construct n dcomp_buffer pool =>
    refine ⟨h.reader, fun m d phase buffers hm => ?_⟩
    have hm : Function.update s.decoder n (.constructing dcomp_buffer) m = .running d phase buffers := hm
    by_cases hmn : m = n
    · rw [hmn, Function.update_self] at hm
      cases hm
    · rw [Function.update_of_ne hmn] at hm
      exact h.decoder m d phase buffers hm
  | constructed thread run =>
    obtain ⟨tx, rest, -, rfl⟩ := constructed_eq run
    exact h.update rfl rfl ⟨tx.clear, rfl, fun _ => rfl⟩
  | @wait n d thread => exact h.update rfl rfl (h.decoder n d .idle [] thread)
  | @decode n d phase buffers frames event t thread turn own first pushed =>
    have hequips : phase.Equips (s.lend d) := by
      have hequipped := hinv.equipped n
      rw [thread] at hequipped
      cases phase <;> exact hequipped
    have hroomy : phase.Roomy (s.lend d) := by
      have hroomy := h.decoder n d phase buffers thread
      cases phase <;> exact hroomy
    exact h.update rfl rfl (Threads.roomy_step hequips hroomy turn own)
  | tapWait => exact ⟨h.reader, h.decoder⟩
  | tapHandle => exact ⟨h.reader, h.decoder⟩
  | tapGiveBack => exact ⟨h.reader, h.decoder⟩
  | learning => exact ⟨h.reader, h.decoder⟩

theorem Ready.of_path (h : available.Nodup)
    (hrun : StepPath (Step rcfg cfg) (ReceiveSide.start heap available tap_writer) events s) : Ready s := by
  have hboth : Inv rcfg available events s ∧ Ready s := by
    refine hrun.invariant_prefix [] (I := fun events s => Inv rcfg available events s ∧ Ready s) ?_
      ⟨Inv.start h, fun i hi => ?_, fun n d phase buffers hthread => ?_⟩
    · rintro events s event t ⟨hinv, hs⟩ hstep
      exact ⟨hinv.step hstep, hs.step hinv hstep⟩
    · obtain rfl := ReaderPhase.filling.inj hi
      exact Nat.zero_le _
    · have hthread : DecoderThread.starting = .running d phase buffers := hthread
      cases hthread
  exact hboth.2

variable (rcfg cfg) in
/-- **Behind the last frame of a datagram** the decoder is through with it, once it has a new buffer. -/
theorem exists_through {n : In6Addr} {d : PacketDecoder H B} {packetBuffer : PacketBuffer B} {assembled : Bool}
    {pos : Nat} (hthread : s.decoder n = .running d (.refill packetBuffer assembled pos) [])
    (hpos : packetBuffer.dataSize ≤ pos) (hfree : s.reader.available_tx_buffer_pool.pool ≠ []) :
    ∃ s' d', StepPath (Step rcfg cfg) s [.decoded n [] [], .decoded n [] []] s' ∧
      s'.decoder = Function.update s.decoder n (.running d' .idle []) ∧ s'.reader.phase = s.reader.phase ∧
      s'.reader.decoder_pool = s.reader.decoder_pool ∧ s'.tap_write_pool.pool = s.tap_write_pool.pool ∧
      s'.buffers = s.buffers := by
  have hlent : (s.lend d).available_buffer_pool.pool ≠ [] := fun hnil => hfree (List.map_eq_nil_iff.mp hnil)
  obtain ⟨d1, hrefill, hsame⟩ := PacketDecoder.exists_refill cfg assembled hlent
  let s1 := s.settle n d1 (.options packetBuffer pos (!assembled)) []
  have hstep1 : Step rcfg cfg s (.decoded n [] []) s1 := by
    refine .decode hthread (.refilled hrefill) (by intro heq; cases heq) rfl ?_
    rw [List.append_nil, hsame]
    rfl
  have hthread1 : s1.decoder n = .running d1 (.options packetBuffer pos (!assembled)) [] := Function.update_self ..
  obtain ⟨d2, hfinish, hsame'⟩ : ∃ d2, (finish cfg packetBuffer (!assembled)).run (s1.lend d1) = .ok () d2 ∧
      d2.tx_buffer_pool = s1.tap_write_pool := by
    refine ⟨_, finish_run _, ?_⟩
    cases assembled <;> rfl
  have hstep2 : Step rcfg cfg s1 (.decoded n [] []) (s1.settle n d2 .idle []) := by
    refine .decode hthread1 (.finished (Nat.not_lt.mpr hpos) hfinish) (by intro heq; cases heq) rfl ?_
    rw [List.append_nil, hsame']
  refine ⟨_, d2, .cons hstep1 (.single hstep2), Function.update_idem _ _ _, rfl, rfl, ?_, rfl⟩
  show d2.tx_buffer_pool.pool = s.tap_write_pool.pool
  rw [hsame']
  exact congrArg BufferPool.pool hsame

/-- **No thread throws, and none waits while a buffer is free**, whatever datagrams come in and however
the threads are interleaved. -/
theorem receive_side_goes_on (hlibs : LibsBounded cfg B) (h : available.Nodup)
    (hrun : StepPath (Step rcfg cfg) (ReceiveSide.start heap available tap_writer) events s)
    (hfree : s.reader.available_tx_buffer_pool.pool ≠ []) : GoesOn rcfg cfg s := by
  have hinv := Inv.of_path h hrun
  have hready := Ready.of_path h hrun
  refine ⟨fun hnot => ?_, fun n hn hnot => ?_, fun n d phase buffers hthread hwork => ?_⟩
  · obtain ⟨event, reader, hown⟩ := hinv.reader.exists_own hready.reader hnot hfree
    exact ⟨event, _, .reader hown.1 hown.2⟩
  · obtain ⟨buffer, rest, hbuffer⟩ : ∃ buffer rest, s.reader.free = buffer :: rest := by
      obtain ⟨a, pool, hpool⟩ := List.exists_cons_of_ne_nil hfree
      rw [SocketReader.free, hpool]
      exact ⟨_, _, rfl⟩
    cases hthread : s.decoder n with
    | starting =>
      have hpop : BufferPool.pop_wait (⟨s.reader.free⟩ : BufferPool (PacketBuffer B) B) = .ok (buffer, ⟨rest⟩) := by
        rw [BufferPool.pop_wait, hbuffer]
      refine ⟨_, .construct hn hthread hpop, ?_⟩
      show Function.update s.decoder n _ n ≠ _
      rw [Function.update_self]
      intro heq
      cases heq
    | constructing dcomp_buffer =>
      obtain ⟨d, hrun⟩ : ∃ d : PacketDecoder H B, (_getTxBuffer : DecoderCall H B Unit).run
          { init cfg s.tap_write_pool ⟨s.reader.free⟩ with dcomp_buffer := some dcomp_buffer } = .ok () d := by
        rw [hbuffer]
        exact ⟨_, rfl⟩
      refine ⟨_, .constructed hthread hrun, ?_⟩
      show Function.update s.decoder n _ n ≠ _
      rw [Function.update_self]
      intro heq
      cases heq
    | running d phase buffers => exact absurd hthread (hnot d phase buffers)
  · have hequips : phase.Equips (s.lend d) := by
      have hequipped := hinv.equipped n
      rw [hthread] at hequipped
      cases phase <;> exact hequipped
    have hroomy : phase.Roomy (s.lend d) := by
      have hroomy := hready.decoder n d phase buffers hthread
      cases phase <;> exact hroomy
    have hlent : (s.lend d).available_buffer_pool.pool ≠ [] := by
      intro hnil
      exact hfree (List.map_eq_nil_iff.mp hnil)
    obtain ⟨event, t, frames, hturn, hown, hfirst, hframes⟩ :=
      Threads.exists_step (t := ⟨s.lend d, phase, buffers⟩) hlibs hequips hroomy hwork hlent
    exact ⟨_, frames, _, .decode hthread hturn hown hfirst hframes⟩

theorem receive_side_goes_on_octets :
    let n := mappedAddr #v[192, 0, 2, 1]
    let T := Tunnel.smallestLZ4 (.inet 58023 #v[192, 0, 2, 1])
    let rcfg : ReaderConfig := ⟨{n}, .little, 28, by decide, id⟩
    ∃ (events : List (ReceiveEvent T.B)) (s : ReceiveSide (List (List UInt8)) T.B),
      (framesHandled events).map PacketBuffer.data = [[1, 2, 3]] ∧ GoesOn rcfg (T.decoder fun _ => 0) s := by
  intro n T rcfg
  obtain ⟨events, s, hrun, -, hhandled, hfree⟩ := exists_handled_octets (List.nodup_range (n := 259))
    (by rw [SETH_MAX_RECVMM_MESSAGES, List.length_range])
  exact ⟨events, s, hhandled, receive_side_goes_on ⟨StreamCompressor.literals_decompressBounded _,
    StreamCompressor.literals_decompressBounded _⟩ List.nodup_range hrun hfree⟩

end ReceiveSide
end SuperEthd
