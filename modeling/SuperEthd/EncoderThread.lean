import SuperEthd.EncoderStream
import SuperEthd.Inflight

/-! # The encoder thread

`RemoteNode::_tunnel_encoder_handler` and the `wait_for` of its pool, beside the other threads.  The
timeout says whether something may be pending: it is one millisecond until a wait times out, and
zero, which is for ever, from then on until one returns.

The encoder never looks into `socket_write_pool`, so in its TX pool is all that was pushed there,
whatever has been taken since. -/
namespace SuperEthd
open PacketEncoder

variable {H : Type}

/-- Where the thread is in its loop. -/
inductive EncoderPoint (B : Nat)
  /-- before the test of the stop flag -/
  | top
  /-- in `cv.wait` or `cv.wait_for`, without the lock -/
  | waiting
  /-- `wait_for` returned false -/
  | timedOut
  /-- `wait_for` returned true, and these buffers are to be encoded -/
  | batch (buffers : List (PacketBuffer B))
  | stopped

/-- The buffers the thread holds. -/
def EncoderPoint.buffers {B : Nat} : EncoderPoint B → List (PacketBuffer B)
  | .batch buffers => buffers
  | _ => []

/-- The thread and its pool; the timeout is in milliseconds. -/
structure EncoderThread (T : Tunnel H) where
  encoder_pool : BufferPool (PacketBuffer T.B) T.B
  encoder : PacketEncoder H T.B
  timeout : Nat
  point : EncoderPoint T.B

namespace EncoderThread
variable {T : Tunnel H}

/-- Before the loop, with a new encoder. -/
def start (encoder : PacketEncoder H T.B) : EncoderThread T where
  encoder_pool := ⟨[]⟩
  encoder := encoder
  timeout := 1
  point := .top

/-- `wait_for` takes what there is and returns true. -/
def taking (s : EncoderThread T) : EncoderThread T :=
  { s with encoder_pool := ⟨[]⟩, point := .batch s.encoder_pool.pool }

/-- **The threads**; a step is labelled with the frames that are pushed to the encoder pool. -/
inductive Step : EncoderThread T → List (PacketBuffer T.B) → EncoderThread T → Prop
  /-- the TAP reader pushes frames -/
  | arrival {s : EncoderThread T} (frames : List (PacketBuffer T.B)) :
      Step s frames { s with encoder_pool := ⟨s.encoder_pool.pool ++ frames⟩ }
  /-- other threads take free buffers and give buffers back -/
  | available {s : EncoderThread T} (pool : BufferPool (PacketBuffer T.B) T.B) :
      Step s [] { s with encoder := { s.encoder with available_buffer_pool := pool } }
  | stop {s : EncoderThread T} : s.point = .top → Step s [] { s with point := .stopped }
  /-- there are items, so there is no waiting -/
  | items {s : EncoderThread T} : s.point = .top → s.encoder_pool.pool ≠ [] → Step s [] s.taking
  | wait {s : EncoderThread T} : s.point = .top → s.encoder_pool.pool = [] →
      Step s [] { s with point := .waiting }
  /-- `cv.wait` returns, or `cv.wait_for` does with `no_timeout`: notified or not, and whether or not
  there is something in the pool -/
  | wake {s : EncoderThread T} : s.point = .waiting → Step s [] s.taking
  /-- `cv.wait_for` returns with `timeout`, which `cv.wait` does not have -/
  | timeout {s : EncoderThread T} : s.point = .waiting → s.timeout ≠ 0 →
      Step s [] { s with point := .timedOut }
  | flush {s : EncoderThread T} {encoder : PacketEncoder H T.B} : s.point = .timedOut →
      Calls T.encoder s.encoder .flush encoder →
      Step s [] { s with encoder := encoder, timeout := 0, point := .top }
  | encode {s : EncoderThread T} {encoder : PacketEncoder H T.B} {buffer : PacketBuffer T.B}
      {buffers : List (PacketBuffer T.B)} : s.point = .batch (buffer :: buffers) →
      Calls T.encoder s.encoder (.encode buffer) encoder →
      Step s [] { s with encoder := encoder, point := .batch buffers }
  | encoded {s : EncoderThread T} : s.point = .batch [] →
      Step s [] { s with timeout := 1, point := .top }

/-- The thread waits for ever, or is about to. -/
def WaitsForEver (s : EncoderThread T) : Prop :=
  (s.point = .top ∨ s.point = .waiting) ∧ s.timeout = 0

/-- The frames in the buffers that are not too large. -/
def acceptedOf (T : Tunnel H) (buffers : List (PacketBuffer T.B)) : List (List UInt8) :=
  buffers.flatMap fun buffer => Op.accepted T (.encode buffer)

/-- Nothing is pending in the encoder. -/
structure Drained {B : Nat} (e : PacketEncoder H B) : Prop where
  tx_buffer : ∃ tx, e.tx_buffer = some tx ∧ tx.dataSize = PacketHeader.size
  inflight_buffers : e.inflight_buffers = []

/-- **No frame is stranded**, of those that arrived: of the frames that were taken from the pool, every
one that is not too large is segmented in the datagrams that were pushed, and nothing is pending. -/
structure NothingStranded (arrived : List (PacketBuffer T.B)) (s : EncoderThread T) : Prop where
  sent : ∃ taken ds segs, arrived = taken ++ s.encoder_pool.pool ∧
    SegmentsFrames T 1 (acceptedOf T taken) s.encoder ds [] segs
  drained : Drained s.encoder

/-- The frames that arrived are in the pool, were encoded, or are in the hands of the thread, which
waits for ever only with an encoder that is drained. -/
structure Keeps (arrived : List (PacketBuffer T.B)) (s : EncoderThread T) : Prop where
  idle : Idle T 1 s.encoder
  frames : ∃ taken, arrived = taken ++ s.encoder_pool.pool ∧
    s.encoder.accepted ++ acceptedOf T s.point.buffers = acceptedOf T taken
  drained : s.WaitsForEver → Drained s.encoder

section Runs
variable {s s' : EncoderThread T} {arrived frames : List (PacketBuffer T.B)}

/-- Taking what is in the pool keeps the frames, and the thread does not wait then. -/
theorem Keeps.taking (h : Keeps arrived s) (hbuffers : s.point.buffers = []) : Keeps arrived s.taking := by
  obtain ⟨taken, harrived, hframes⟩ := h.frames
  refine ⟨h.idle, ⟨arrived, (List.append_nil _).symm, ?_⟩, ?_⟩
  · rw [hbuffers] at hframes
    show s.encoder.accepted ++ acceptedOf T s.encoder_pool.pool = acceptedOf T arrived
    rw [harrived, acceptedOf, acceptedOf, List.flatMap_append]
    exact congrArg (· ++ _) ((List.append_nil _).symm.trans hframes)
  · rintro ⟨hpoint | hpoint, -⟩ <;> cases hpoint

/-- A flush drains the encoder. -/
theorem drained_of_flush {e e' : PacketEncoder H T.B} (h : Idle T 1 e)
    (hcall : Calls T.encoder e .flush e') : Drained e' := by
  obtain ⟨fuel, hrun⟩ := hcall
  refine ⟨?_, ((Call.Meets.trivial (P := fun _ => True) _).bind fun _ => _flushInflight_empties).ok
    trivial hrun⟩
  rcases flush_run h with ⟨e1, hb⟩ | ⟨e1, hrun1, -, -, htx⟩
  · cases hrun.symm.trans hb
  · obtain ⟨-, rfl⟩ := EStateM.Result.ok.inj (hrun.symm.trans hrun1)
    exact htx

theorem Keeps.congr (h : Keeps arrived s) (hidle : Idle T 1 s'.encoder)
    (hpool : s'.encoder_pool = s.encoder_pool)
    (hframes : s'.encoder.accepted ++ acceptedOf T s'.point.buffers =
      s.encoder.accepted ++ acceptedOf T s.point.buffers)
    (hdrained : s'.WaitsForEver → Drained s'.encoder) : Keeps arrived s' := by
  obtain ⟨taken, h1, h2⟩ := h.frames
  exact ⟨hidle, ⟨taken, hpool ▸ h1, hframes.trans h2⟩, hdrained⟩

theorem idle_of_available {e : PacketEncoder H T.B} (h : Idle T 1 e)
    (pool : BufferPool (PacketBuffer T.B) T.B) : Idle T 1 { e with available_buffer_pool := pool } := by
  obtain ⟨⟨history, hem, hs⟩, hcomp, hroom⟩ := h
  exact ⟨⟨history, hem.congr ⟨rfl, rfl, rfl, rfl, rfl, rfl⟩, hs.congr ⟨rfl, rfl, rfl, rfl, rfl⟩⟩, hcomp,
    hroom⟩

/-- **One step** keeps the frames, and adds those that arrive. -/
theorem Keeps.step (hlib : Bounded T) (h : Keeps arrived s) (hstep : Step s frames s') :
    Keeps (arrived ++ frames) s' := by
  cases hstep with
  | arrival =>
    obtain ⟨taken, harrived, hframes⟩ := h.frames
    refine ⟨h.idle, ⟨taken, ?_, hframes⟩, h.drained⟩
    rw [harrived, List.append_assoc]
  | available pool =>
    rw [List.append_nil]
    refine h.congr (idle_of_available h.idle pool) rfl rfl fun hwaits => ?_
    exact ⟨(h.drained hwaits).tx_buffer, (h.drained hwaits).inflight_buffers⟩
  | stop hpoint =>
    rw [List.append_nil]
    refine h.congr h.idle rfl (by rw [hpoint]; rfl) ?_
    rintro ⟨hpoint | hpoint, -⟩ <;> cases hpoint
  | items hpoint _ =>
    rw [List.append_nil]
    exact h.taking (by rw [hpoint]; rfl)
  | wait hpoint _ =>
    rw [List.append_nil]
    refine h.congr h.idle rfl (by rw [hpoint]; rfl) ?_
    rintro ⟨-, hzero⟩
    exact h.drained ⟨Or.inl hpoint, hzero⟩
  | wake hpoint =>
    rw [List.append_nil]
    exact h.taking (by rw [hpoint]; rfl)
  | timeout hpoint hlimited =>
    rw [List.append_nil]
    refine h.congr h.idle rfl (by rw [hpoint]; rfl) ?_
    rintro ⟨-, hzero⟩
    exact absurd hzero hlimited
  | flush hpoint hcall =>
    -- the only step after which the timeout is zero
    rw [List.append_nil]
    obtain ⟨hidle, hacc⟩ := h.idle.calls hlib hcall
    refine h.congr hidle rfl ?_ fun _ => drained_of_flush h.idle hcall
    rw [hacc, Op.accepted, List.append_nil, hpoint]
    rfl
  | encode hpoint hcall =>
    rw [List.append_nil]
    obtain ⟨hidle, hacc⟩ := h.idle.calls hlib hcall
    refine h.congr hidle rfl ?_ ?_
    · rw [hacc, hpoint, List.append_assoc]
      rfl
    · rintro ⟨hpoint | hpoint, -⟩ <;> cases hpoint
  | encoded hpoint =>
    rw [List.append_nil]
    refine h.congr h.idle rfl (by rw [hpoint]; rfl) ?_
    rintro ⟨-, hzero⟩
    exact absurd hzero one_ne_zero

/-- **A run** keeps the frames that arrived. -/
theorem keeps_of_path (hlib : Bounded T) {made : List (PacketBuffer T.B)} {encoder : PacketEncoder H T.B}
    {labels : List (List (PacketBuffer T.B))} (hstart : Starts T.libs T.packet_format 1 made encoder)
    (hrun : StepPath Step (start encoder) labels s) : Keeps labels.flatten s := by
  obtain ⟨hidle, hnone⟩ := hstart.fresh
  refine hrun.invariant_prefix [] (I := fun labels s => Keeps labels.flatten s) ?_ ⟨hidle, ⟨[], rfl, ?_⟩, ?_⟩
  · intro done s frames t hs hstep
    rw [List.flatten_append, List.flatten_singleton]
    exact hs.step hlib hstep
  · show encoder.accepted ++ acceptedOf T [] = acceptedOf T []
    rw [hnone, List.nil_append]
  · rintro ⟨-, hzero⟩
    exact absurd hzero one_ne_zero

/-- **No frame is stranded in an idle encoder**: whenever the thread waits with timeout zero, all that
it took from the pool was sent. -/
theorem nothingStranded_of_path (hlib : Bounded T) {made : List (PacketBuffer T.B)}
    {encoder : PacketEncoder H T.B} {labels : List (List (PacketBuffer T.B))}
    (hstart : Starts T.libs T.packet_format 1 made encoder)
    (hrun : StepPath Step (start encoder) labels s) (hwaits : s.WaitsForEver) :
    NothingStranded labels.flatten s := by
  have h := keeps_of_path hlib hstart hrun
  obtain ⟨taken, harrived, hframes⟩ := h.frames
  have hdrained := h.drained hwaits
  obtain ⟨tx, htx, h8⟩ := hdrained.tx_buffer
  obtain ⟨history, ⟨ds, pending, c0, hem, hfs⟩, -⟩ := h.idle.stream
  obtain ⟨segs, hsegs⟩ := hem.segments
  obtain rfl := hem.pending_eq_nil htx h8
  refine ⟨⟨taken, ds, segs, harrived, ?_⟩, hdrained⟩
  have hbuffers : s.point.buffers = [] := by
    rcases hwaits.1 with hpoint | hpoint <;> rw [hpoint] <;> rfl
  rw [← hframes, hbuffers, acceptedOf, List.flatMap_nil, List.append_nil, ← hfs]
  exact hsegs

/-- A frame arrives and is encoded; the thread waits for a millisecond, flushes, and waits. -/
theorem nothingStranded_of_path_frame :
    let T := Tunnel.smallestLZ4 (.inet 58023 #v[192, 0, 2, 1])
    let frame : PacketBuffer T.B := .ofData 20 [1, 2, 3] (by decide)
    ∃ s : EncoderThread T, s.point = .waiting ∧ s.encoder.tx_buffer_pool.pool.length = 1 ∧
      NothingStranded [frame] s := by
  intro T frame
  obtain ⟨⟨⟩, e, hrun, hsent⟩ := Call.exists_of_okAnd
    (p := fun e => e.tx_buffer_pool.pool.length == 1)
    (r := T.encoderRun 10 1 (PacketBuffer.fresh 0 10) [.encode frame, .flush]) (by decide +kernel)
  obtain ⟨e0, hstart, hpath⟩ := path_of_encoderRun hrun
  obtain ⟨e1, hencode, hpath⟩ := StepPath.cons_iff.mp hpath
  obtain ⟨e2, hflush, hpath⟩ := StepPath.cons_iff.mp hpath
  obtain rfl := StepPath.nil_iff.mp hpath
  have hthread : StepPath Step (start e0) [[frame], [], [], [], [], [], [], []]
      (⟨⟨[]⟩, e2, 0, .waiting⟩ : EncoderThread T) := by
    refine .cons (.arrival [frame]) (.cons (.items rfl (List.cons_ne_nil _ _)) ?_)
    refine .cons (.encode rfl hencode) (.cons (.encoded rfl) (.cons (.wait rfl rfl) ?_))
    exact .cons (.timeout rfl one_ne_zero) (.cons (.flush rfl hflush) (.cons (.wait rfl rfl) (.nil _)))
  exact ⟨_, rfl, beq_iff_eq.mp hsent, nothingStranded_of_path (T := T)
    (fun _ => (StreamCompressor.literals_lossless _ _).toCompressBounded) hstart hthread
    ⟨Or.inr rfl, rfl⟩⟩

end Runs

end EncoderThread
end SuperEthd
