import Mathlib.Algebra.Order.Group.Multiset
import Mathlib.Tactic.Abel
import SuperEthd.DecoderSteps

/-! # Ownership of the buffers

A buffer is known by its address.  `held` are the addresses of the buffers that a codec and its
two pools own; every call of the codec that returns adds the one buffer it was given
(`codec_conserves_buffers`). -/
namespace SuperEthd
open PacketHeaderOptionType PacketHeaderOptionFormatType

variable {H : Type} {B : Nat}

/-- The addresses of the buffers in a list. -/
def ids (bs : List (PacketBuffer B)) : Multiset Nat := ↑(bs.map PacketBuffer.id)

@[simp] theorem ids_nil : ids ([] : List (PacketBuffer B)) = 0 := rfl

@[simp] theorem ids_cons (b : PacketBuffer B) (bs : List (PacketBuffer B)) :
    ids (b :: bs) = {b.id} + ids bs := rfl

@[simp] theorem ids_append (bs bs' : List (PacketBuffer B)) : ids (bs ++ bs') = ids bs + ids bs' := by
  simp only [ids, List.map_append, Multiset.coe_add]

theorem card_ids (bs : List (PacketBuffer B)) : (ids bs).card = bs.length := List.length_map ..

/-! ## The encoder -/

namespace PacketEncoder
variable {cfg : EncoderConfig} {m : Multiset Nat} {format : PacketHeaderOptionFormatType}
  {e : PacketEncoder H B}

/-- The buffers an encoder and its pools own. -/
def held (e : PacketEncoder H B) : Multiset Nat :=
  ids e.available_buffer_pool.pool + ids e.tx_buffer_pool.pool + ids e.tx_buffer.toList +
    ids e.comp_buffer.toList + ids e.inflight_buffers

/-- In the middle of a call: the encoder owns `m`, its format is `format`, and `tx` and `comp` say
whether it has a `tx_buffer` and a `comp_buffer`. -/
structure Owns (m : Multiset Nat) (format : PacketHeaderOptionFormatType) (tx comp : Bool)
    (e : PacketEncoder H B) : Prop where
  held : e.held = m
  packet_format : e.packet_format = format
  tx_buffer : e.tx_buffer.isSome = tx
  comp_buffer : e.comp_buffer.isSome = comp

variable {comp : Bool}

/-- What may happen when a call does not return. -/
abbrev Anything {σ : Type} (_ : Stop) (_ : σ) : Prop := True

theorem _getTxBuffer_owns : Call.Meets (Owns (H := H) (B := B) m format false comp) _getTxBuffer
    (fun _ => Owns m format true comp) Anything := by
  refine .bind_get fun e h => .bind_ofExcept (fun ⟨b, pool⟩ hpop => ?_) fun _ _ _ _ => trivial
  refine .bind_ofExcept (fun tx hset => ?_) fun _ _ _ _ => trivial
  have hid := PacketBuffer.setDataSize_id hset
  rintro _ rfl
  obtain ⟨hheld, hformat, htx, hcomp⟩ := h
  have hpool := BufferPool.pool_of_pop_wait hpop
  refine ⟨?_, hformat, rfl, hcomp⟩
  rw [← hheld]
  simp only [held, Option.not_isSome_iff_eq_none.mp (Bool.eq_false_iff.mp htx), hpool,
    Option.toList_some, Option.toList_none, ids_cons, ids_nil, hid, PacketBuffer.id_clear]
  abel

/-- `_flush` hands `tx_buffer` on and takes a new one. -/
theorem _flush_owns : Call.Meets (Owns (H := H) (B := B) m format true comp) (_flush cfg)
    (fun _ => Owns m format true comp) Anything := by
  refine .bind_get fun e h => ?_
  obtain ⟨hheld, hformat, htx, hcomp⟩ := h
  obtain ⟨tx, htx⟩ := Option.isSome_iff_exists.mp htx
  rw [htx]
  refine .bind_returns (deref_some tx e) (.ite (fun _ => .returns rfl ?_) fun _ => ?_)
  · exact ⟨hheld, hformat, htx ▸ rfl, hcomp⟩
  refine .bind_ofExcept (fun tx' hwrite => ?_) fun _ _ _ _ => trivial
  rw [BufferPool.push_packetBuffer]
  refine .bind_returns rfl (.bind_returns rfl fun e' he' => _getTxBuffer_owns e' (he' ▸ ?_))
  refine ⟨?_, hformat, rfl, hcomp⟩
  rw [← hheld]
  simp only [held, htx, Option.toList_some, Option.toList_none, ids_append, ids_cons, ids_nil,
    PacketBuffer.writeAt_id hwrite]
  abel

theorem _flushInflight_owns : Call.Meets (Owns (H := H) (B := B) m format true comp) _flushInflight
    (fun _ => Owns m format true comp) Anything := by
  refine .bind_get fun e h => .ite (fun _ => .returns rfl h) fun _ => ?_
  obtain ⟨hheld, hformat, htx, hcomp⟩ := h
  rw [BufferPool.pushBatch_packetBuffer]
  refine .bind_returns rfl (.returns rfl ⟨?_, hformat, htx, hcomp⟩)
  rw [← hheld]
  simp only [held, ids_append, ids_nil]
  abel

/-- `tx_buffer` is written to, where it is. -/
theorem Owns.write {tx tx' : PacketBuffer B} (h : Owns m format true comp e)
    (htx : e.tx_buffer = some tx) (hid : tx'.id = tx.id) :
    Owns m format true comp { e with tx_buffer := some tx' } := by
  obtain ⟨hheld, hformat, -, hcomp⟩ := h
  refine ⟨?_, hformat, rfl, hcomp⟩
  rw [← hheld]
  simp only [PacketEncoder.held, htx, Option.toList_some, ids_cons, hid]

theorem Owns.exists_tx (h : Owns m format true comp e) : ∃ tx, e.tx_buffer = some tx :=
  Option.isSome_iff_exists.mp h.tx_buffer

theorem addOption_owns {option : PacketHeaderOption} {payload : List UInt8} :
    Call.Meets (Owns (H := H) (B := B) m format true comp) (addOption option payload)
      (fun _ => Owns m format true comp) Anything := by
  refine .bind_get fun e h => ?_
  obtain ⟨tx, htx⟩ := h.exists_tx
  rw [htx]
  refine .bind_returns (deref_some tx e) ?_
  refine .bind_ofExcept (fun tx1 h1 => ?_) fun _ _ _ _ => trivial
  refine .bind_ofExcept (fun tx2 h2 => ?_) fun _ _ _ _ => trivial
  refine .bind_ofExcept (fun tx3 h3 => .returns rfl ?_) fun _ _ _ _ => trivial
  have hid := (PacketBuffer.append_id h3).trans
    ((PacketBuffer.setDataSize_id h2).trans (PacketBuffer.writeAt_id h1))
  exact ⟨(h.write htx hid).held, h.packet_format, rfl, h.comp_buffer⟩

theorem setOptionType_owns {pos : Nat} {type : PacketHeaderOptionType} :
    Call.Meets (Owns (H := H) (B := B) m format true comp) (setOptionType pos type)
      (fun _ => Owns m format true comp) Anything := by
  refine .bind_get fun e h => ?_
  obtain ⟨tx, htx⟩ := h.exists_tx
  rw [htx]
  refine .bind_returns (deref_some tx e) ?_
  exact .bind_ofExcept (fun tx1 h1 => .returns rfl (h.write htx (PacketBuffer.writeAt_id h1)))
    fun _ _ _ _ => trivial

theorem txDataSize_owns : Call.Meets (Owns (H := H) (B := B) m format true comp) txDataSize
    (fun _ => Owns m format true comp) Anything := by
  refine .bind_get fun e h => ?_
  obtain ⟨tx, htx⟩ := h.exists_tx
  rw [htx]
  exact .bind_returns (deref_some tx e) (.returns rfl h)

theorem _getMaxPayloadSize_owns {size : Nat} :
    Call.Meets (Owns (H := H) (B := B) m format true comp) (_getMaxPayloadSize cfg size)
      (fun _ => Owns m format true comp) Anything := by
  refine .bind_get fun e h => ?_
  obtain ⟨tx, htx⟩ := h.exists_tx
  rw [htx]
  refine .bind_returns (deref_some tx e) ?_
  exact .ite (fun _ => .returns rfl h) fun _ => .returns rfl h

/-- Laying down a part moves no buffer but the one that goes with a full datagram. -/
theorem addPart_owns {original_size packet_pos : Nat} {part : UInt8}
    {option_format : PacketHeaderOptionFormatType} {buf : PacketBuffer B} :
    Call.Meets (Owns (H := H) m format true comp)
      (addPart cfg original_size option_format buf part packet_pos)
      (fun _ => Owns m format true comp) Anything := by
  refine _getMaxPayloadSize_owns.bind fun _ => ?_
  refine Call.Meets.bind (Q := fun _ => Owns m format true comp) ?_ fun _ => ?_
  · refine txDataSize_owns.bind fun _ => addOption_owns.bind fun _ => ?_
    exact .ite (fun _ => setOptionType_owns) fun _ => .pure (Q := fun _ => Owns m format true comp) ()
  refine Call.Meets.bind (Q := fun _ => Owns m format true comp) ?_ fun _ => ?_
  · refine txDataSize_owns.bind fun _ => ?_
    exact .ite (fun _ => _flush_owns) fun _ => .pure (Q := fun _ => Owns m format true comp) ()
  · exact .pure (Q := fun _ => Owns m format true comp) _

theorem partialLoop_owns {original_size fuel packet_pos : Nat} {part : UInt8}
    {option_format : PacketHeaderOptionFormatType} {buf : PacketBuffer B} :
    Call.Meets (Owns (H := H) m format true comp)
      (partialLoop cfg original_size option_format buf fuel part packet_pos)
      (fun _ => Owns m format true comp) Anything := by
  induction fuel generalizing part packet_pos with
  | zero =>
    unfold partialLoop
    exact .ite (fun _ _ _ => trivial) fun _ => .pure (Q := fun _ => Owns m format true comp) ()
  | succ fuel ih =>
    unfold partialLoop
    exact .ite (fun _ => addPart_owns.bind fun _ => ih)
      fun _ => .pure (Q := fun _ => Owns m format true comp) ()

theorem addPacket_owns {fuel original_size : Nat} {option_format : PacketHeaderOptionFormatType}
    {buf : PacketBuffer B} :
    Call.Meets (Owns (H := H) m format true comp) (addPacket cfg fuel original_size option_format buf)
      (fun _ => Owns m format true comp) Anything := by
  refine _getMaxPayloadSize_owns.bind fun _ => ?_
  exact .ite (fun _ => partialLoop_owns.bind fun _ => _flushInflight_owns) fun _ => addOption_owns

theorem flushIfFull_owns : Call.Meets (Owns (H := H) (B := B) m format true comp) (flushIfFull cfg)
    (fun _ => Owns m format true comp) Anything := by
  refine _getMaxPayloadSize_owns.bind fun _ => ?_
  exact .ite (fun _ => _flush_owns.bind fun _ => _flushInflight_owns)
    fun _ => .pure (Q := fun _ => Owns m format true comp) ()

/-- **Compression** leaves one buffer in the hands of the caller: the raw one, or the compression
buffer, in whose place the raw one is owned. -/
theorem compressPacket_owns {raw : PacketBuffer B} {original_size : Nat}
    (hcomp : format ≠ NONE → comp = true) :
    Call.Meets (Owns (H := H) m format true comp) (compressPacket raw original_size)
      (fun r e => ∃ m' comp', m' + {r.1.id} = m + {raw.id} ∧ Owns m' format true comp' e) Anything := by
  refine .bind_get fun e h => .ite (fun _ => .returns rfl ⟨m, comp, rfl, h⟩) fun hne => ?_
  obtain ⟨hheld, hformat, htx, hc⟩ := h
  rw [hformat] at hne
  obtain rfl := hcomp hne
  obtain ⟨cb, hcb⟩ := Option.isSome_iff_exists.mp hc
  cases hstream : e.compressor with
  | none =>
    rintro _ rfl
    trivial
  | some stream =>
  refine .bind_returns (deref_some stream e) ?_
  rw [hcb]
  refine .bind_returns (deref_some cb e) ?_
  refine .bind_ofExcept (fun cb1 h1 => .bind_set (.ite (fun _ => ?_) fun _ => ?_)) fun _ _ _ _ => trivial
  · refine .bind_ofExcept (fun buf h2 => ?_) fun _ _ _ _ => trivial
    have hid := (PacketBuffer.setDataSize_id h2).trans (PacketBuffer.writeAt_id h1)
    refine .bind_returns rfl (.bind_returns rfl (.returns rfl ⟨_, false, ?_, rfl, hformat, htx, rfl⟩))
    rw [← hheld]
    simp only [held, hcb, Option.toList_some, Option.toList_none, ids_append, ids_cons, ids_nil, hid]
    abel
  · refine .returns rfl ⟨m, true, rfl, ?_, hformat, htx, rfl⟩
    rw [← hheld]
    simp only [held, hcb, Option.toList_some, ids_cons, PacketBuffer.writeAt_id h1]

/-- Between two calls the encoder has a `tx_buffer`, and a `comp_buffer` if a format is set. -/
structure OwnsIdle (m : Multiset Nat) (format : PacketHeaderOptionFormatType)
    (e : PacketEncoder H B) : Prop where
  held : e.held = m
  packet_format : e.packet_format = format
  tx_buffer : e.tx_buffer.isSome
  comp_buffer : format ≠ NONE → e.comp_buffer.isSome

theorem Owns.idle (h : Owns m format true comp e) (hcomp : format ≠ NONE → comp = true) :
    OwnsIdle m format e :=
  ⟨h.held, h.packet_format, h.tx_buffer, fun hne => h.comp_buffer.trans (hcomp hne)⟩

theorem pushAvailable_owns {buf : PacketBuffer B} :
    Call.Meets (Owns (H := H) m format true comp) (pushAvailable buf)
      (fun _ => Owns (m + {buf.id}) format true comp) Anything := by
  refine .bind_get fun e h => ?_
  obtain ⟨hheld, hformat, htx, hcomp⟩ := h
  rw [BufferPool.push_packetBuffer]
  refine .bind_returns rfl (.returns rfl ⟨?_, hformat, htx, hcomp⟩)
  rw [← hheld]
  simp only [held, ids_append, ids_cons, ids_nil]
  abel

theorem release_owns {buf : PacketBuffer B} :
    Call.Meets (Owns (H := H) m format true comp) (release buf)
      (fun _ => OwnsIdle (m + {buf.id}) format) Anything := by
  refine .bind_get fun e h => .ite (fun hc => .returns rfl ?_) fun hc => ?_
  · obtain ⟨hheld, hformat, htx, hcomp⟩ := h
    refine ⟨?_, hformat, htx, fun _ => rfl⟩
    rw [← hheld]
    simp only [held, Option.isNone_iff_eq_none.mp hc.2, Option.toList_some, Option.toList_none,
      ids_cons, ids_nil]
    abel
  · refine pushAvailable_owns.mono (fun _ he => he ▸ h) (fun _ _ h' => h'.idle fun hne => ?_)
      fun _ _ h => h
    rw [h.packet_format] at hc
    rw [← h.comp_buffer]
    exact Option.ne_none_iff_isSome.mp fun hn => hc ⟨hne, Option.isNone_iff_eq_none.mpr hn⟩

/-- The buffer a call is given. -/
def Op.buffers : Op B → List (PacketBuffer B)
  | .encode raw => [raw]
  | .flush => []

/-- **One call** adds the buffer it was given. -/
theorem step_owns {fuel : Nat} (op : Op B) :
    Call.Meets (OwnsIdle (H := H) m format) (step cfg fuel op)
      (fun _ => OwnsIdle (m + ids op.buffers) format) Anything := by
  intro e h
  have howns : Owns m format true e.comp_buffer.isSome e :=
    ⟨h.held, h.packet_format, h.tx_buffer, rfl⟩
  have hcomp : format ≠ NONE → e.comp_buffer.isSome = true := h.comp_buffer
  cases op with
  | flush =>
    rw [Op.buffers, ids_nil, add_zero]
    exact ((_flush_owns.bind fun _ => _flushInflight_owns).mono (fun _ h => h)
      (fun _ _ h' => h'.idle hcomp) fun _ _ h => h) e howns
  | encode raw =>
    rw [Op.buffers, ids_cons, ids_nil, add_zero]
    have hencode : Call.Meets (Owns (H := H) m format true e.comp_buffer.isSome) (encode cfg fuel raw)
        (fun _ => OwnsIdle (m + {raw.id}) format) Anything := by
      refine .ite (fun _ => ?_) fun _ => ?_
      · exact pushAvailable_owns.bind fun _ => fun e' h' => h'.idle hcomp
      refine Call.Meets.bind (Q := fun _ => Owns m format true e.comp_buffer.isSome)
        (fun e' h' => ⟨h'.held, h'.packet_format, h'.tx_buffer, h'.comp_buffer⟩) fun _ => ?_
      refine (compressPacket_owns hcomp).bind fun ⟨buf, option_format⟩ => ?_
      rintro e' ⟨m', comp', hm, h'⟩
      rw [← hm]
      exact (addPacket_owns.bind fun _ => flushIfFull_owns.bind fun _ => release_owns) e' h'
    exact hencode e howns

/-- A new encoder whose constructor did not have to wait, with a format set. -/
def Starts (libs : Compressors H) (format : PacketHeaderOptionFormatType) (seq : UInt32)
    (available : List (PacketBuffer B)) (e : PacketEncoder H B) : Prop :=
  (do new; setSequence seq; setPacketFormat libs format : EncoderCall H B Unit).run
    (init ⟨[]⟩ ⟨available⟩) = .ok () e

/-- A call that returns. -/
def Calls (cfg : EncoderConfig) (e : PacketEncoder H B) (op : Op B) (e' : PacketEncoder H B) : Prop :=
  ∃ fuel, (step cfg fuel op).run e = .ok () e'

theorem path_of_runAll {fuel : Nat} {ops : List (Op B)} {e e' : PacketEncoder H B}
    (h : (Call.runAll (step cfg fuel) ops).run e = .ok () e') : StepPath (Calls cfg) e ops e' := by
  induction ops generalizing e with
  | nil =>
    obtain ⟨-, rfl⟩ := EStateM.Result.ok.inj h
    exact .nil _
  | cons op ops ih =>
    obtain ⟨_, e1, h1, h2⟩ := Call.run_bind_eq_ok.mp h
    exact .cons ⟨fuel, h1⟩ (ih h2)

/-- A run that returns, from the constructor on. -/
theorem path_of_encoderRun {T : Tunnel H} {fuel : Nat} {seq : UInt32}
    {available : List (PacketBuffer T.B)} {ops : List (Op T.B)} {e : PacketEncoder H T.B}
    (h : T.encoderRun fuel seq available ops = .ok () e) :
    ∃ e0, Starts T.libs T.packet_format seq available e0 ∧ StepPath (Calls T.encoder) e0 ops e := by
  obtain ⟨_, e1, h1, h⟩ := Call.run_bind_eq_ok.mp h
  obtain ⟨_, e2, h2, h⟩ := Call.run_bind_eq_ok.mp h
  obtain ⟨_, e0, h3, h⟩ := Call.run_bind_eq_ok.mp h
  exact ⟨e0, Call.run_bind_eq_ok.mpr ⟨_, e1, h1, Call.run_bind_eq_ok.mpr ⟨_, e2, h2, h3⟩⟩,
    path_of_runAll h⟩

theorem Starts.owns {libs : Compressors H} {seq : UInt32} {available : List (PacketBuffer B)}
    (h : Starts libs format seq available e) : OwnsIdle (ids available) format e := by
  have hnew : Call.Meets (· = (init ⟨[]⟩ ⟨available⟩ : PacketEncoder H B)) new
      (fun _ => Owns (ids available) NONE true true) Anything := by
    cases available with
    | nil =>
      rintro _ rfl
      trivial
    | cons b rest =>
      refine .bind_returns rfl (.bind_returns rfl (.bind_returns rfl ?_))
      refine _getTxBuffer_owns.mono (fun e he => he ▸ ⟨?_, rfl, rfl, rfl⟩) (fun _ _ h => h) fun _ _ h => h
      simp only [held, init, Option.toList_some, Option.toList_none, ids_cons, ids_nil]
      abel
  have hformat : Call.Meets (Owns (H := H) (B := B) (ids available) NONE true true)
      (setPacketFormat libs format) (fun _ => OwnsIdle (ids available) format) Anything := by
    refine Call.Meets.bind (Q := fun _ => OwnsIdle (ids available) format)
      (fun e he => ⟨he.held, rfl, he.tx_buffer, fun _ => he.comp_buffer⟩) fun _ => ?_
    have hset : ∀ comp : Option (CompressionStream H), Call.Meets
        (OwnsIdle (B := B) (ids available) format) (modify fun e => { e with compressor := comp })
        (fun _ => OwnsIdle (ids available) format) Anything :=
      fun comp e he => ⟨he.held, he.packet_format, he.tx_buffer, he.comp_buffer⟩
    exact .ite (fun _ => hset _) fun _ => .ite (fun _ => hset _) fun _ => .ite (fun _ => hset _)
      fun _ _ _ => trivial
  have hseq : Call.Meets (Owns (H := H) (B := B) (ids available) NONE true true) (setSequence seq)
      (fun _ => Owns (ids available) NONE true true) Anything :=
    fun e he => ⟨he.held, he.packet_format, he.tx_buffer, he.comp_buffer⟩
  exact (hnew.bind fun _ => hseq.bind fun _ => hformat).ok rfl h

/-- Every run adds the buffers it was given. -/
theorem Starts.owns_of_path {libs : Compressors H} {seq : UInt32} {available : List (PacketBuffer B)}
    {ops : List (Op B)} {e' : PacketEncoder H B} (h : Starts libs format seq available e)
    (hrun : StepPath (Calls cfg) e ops e') :
    OwnsIdle (ids available + ids (ops.flatMap Op.buffers)) format e' := by
  have h0 : OwnsIdle (ids available + ids (([] : List (Op B)).flatMap Op.buffers)) format e :=
    (add_zero (ids available)).symm ▸ h.owns
  refine hrun.invariant_prefix [] (I := fun ops e => OwnsIdle
    (ids available + ids (ops.flatMap Op.buffers)) format e) ?_ h0
  rintro done s op t hs ⟨fuel, hstep⟩
  rw [List.flatMap_append, List.flatMap_singleton, ids_append, ← add_assoc]
  exact (step_owns op).ok hs hstep

end PacketEncoder

/-! ## The decoder -/

namespace PacketDecoder
variable {cfg : DecoderConfig H} {m : Multiset Nat} {d d' : PacketDecoder H B}
  {packetBuffer : PacketBuffer B}

/-- The buffers a decoder and its pools own. -/
def held (d : PacketDecoder H B) : Multiset Nat :=
  ids d.available_buffer_pool.pool + ids d.tx_buffer_pool.pool + ids d.tx_buffer.toList +
    ids d.dcomp_buffer.toList + ids d.inflight_buffers

/-- Between two options and between two calls: the decoder owns `m`, and has its two buffers. -/
structure Owns (m : Multiset Nat) (d : PacketDecoder H B) : Prop where
  held : d.held = m
  tx_buffer : d.tx_buffer.isSome
  dcomp_buffer : d.dcomp_buffer.isSome

theorem Owns.exists_buffers (h : Owns m d) :
    ∃ tx dc, d.tx_buffer = some tx ∧ d.dcomp_buffer = some dc := by
  obtain ⟨tx, htx⟩ := Option.isSome_iff_exists.mp h.tx_buffer
  obtain ⟨dc, hdc⟩ := Option.isSome_iff_exists.mp h.dcomp_buffer
  exact ⟨tx, dc, htx, hdc⟩

@[simp] theorem ids_map_clear (tx : Option (PacketBuffer B)) :
    ids (tx.map PacketBuffer.clear).toList = ids tx.toList := by
  cases tx <;> rfl

theorem Owns.cleared (h : Owns m d) : Owns m d.cleared := by
  refine ⟨?_, by rw [PacketDecoder.cleared, Option.isSome_map]; exact h.tx_buffer, h.dcomp_buffer⟩
  rw [← h.held]
  simp only [PacketDecoder.held, PacketDecoder.cleared, ids_map_clear]

theorem Owns.flushed (h : Owns m d) : Owns m (d.flushed cfg) := by
  refine ⟨?_, h.tx_buffer, h.dcomp_buffer⟩
  rw [← h.held]
  simp only [PacketDecoder.held, PacketDecoder.flushed, resetStreams, ids_append, ids_nil]
  abel

variable (packetBuffer) in
/-- The datagram goes to the inflight list. -/
theorem Owns.pushInflight (h : Owns m d) : Owns (m + {packetBuffer.id})
    { d with inflight_buffers := d.inflight_buffers ++ [packetBuffer] } := by
  refine ⟨?_, h.tx_buffer, h.dcomp_buffer⟩
  rw [← h.held]
  simp only [PacketDecoder.held, ids_append, ids_cons, ids_nil]
  abel

theorem Owns.refusing (h : Owns m d) :
    Owns (m + {packetBuffer.id}) (d.refusing cfg packetBuffer) :=
  (h.cleared.pushInflight packetBuffer).flushed

/-- Trying a record may swap the two buffers. -/
theorem Owns.tried {format : PacketHeaderOptionFormatType} (h : Owns m d)
    (htried : Tried format d d') : Owns m d' := by
  obtain ⟨tx, dc, tx', dc', htx, hdc, htx', hdc', hids⟩ := htried.buffers
  refine ⟨?_, htx' ▸ rfl, hdc' ▸ rfl⟩
  rw [← h.held]
  simp only [PacketDecoder.held, htried.available_buffer_pool, htried.tx_buffer_pool,
    htried.inflight_buffers, htx, hdc, htx', hdc', Option.toList_some, ids_cons, ids_nil]
  rcases hids with ⟨h1, h2⟩ | ⟨h1, h2⟩
  · rw [h1, h2]
  · rw [h1, h2]
    abel

theorem Owns.begun (h : Owns m d) (option : PacketHeaderOption) : Owns m (d.begun cfg option) := by
  unfold PacketDecoder.begun
  split
  · exact h.cleared.flushed
  · exact h

theorem Owns.arrived (h : Owns m d) (sequence : UInt32) : Owns m (d.arrived cfg sequence) := by
  have h' : Owns m (if d.goesOn sequence then d else d.cleared.flushed cfg) := by
    split
    · exact h
    · exact h.cleared.flushed
  exact ⟨h'.held, h'.tx_buffer, h'.dcomp_buffer⟩

/-- After the push of a frame `tx_buffer` is gone. -/
structure OwnsPushed (m : Multiset Nat) (d : PacketDecoder H B) : Prop where
  held : d.held = m
  tx_buffer : d.tx_buffer = none
  dcomp_buffer : d.dcomp_buffer.isSome

theorem Owns.outcome {pos : Nat} {flag : Bool} {option : PacketHeaderOption} {tx : PacketBuffer B}
    {r : Progress} (h : Owns m d) (htx : d.tx_buffer = some tx)
    (ho : Outcome cfg packetBuffer pos flag option tx d r d') :
    match r with
    | .refused => Owns (m + {packetBuffer.id}) d'
    | .onto _ _ => Owns m d'
    | .delivered _ _ => OwnsPushed m d' := by
  cases ho with
  | refused htried => exact ((h.begun option).tried htried).refusing
  | ignored => exact h
  | skipped => exact h.cleared.flushed
  | kept htype hpart hcomplete hun hsize hdata hid =>
    refine ⟨?_, rfl, h.dcomp_buffer⟩
    rw [← h.held]
    simp only [PacketDecoder.held, keeping, htx, Option.toList_some, ids_cons, hid]
  | delivered hsize hused htried htx1 =>
    have h1 := (h.begun option).tried htried
    refine ⟨?_, rfl, h1.dcomp_buffer⟩
    rw [← h1.held]
    simp only [PacketDecoder.held, pushed, htx1, Option.toList_some, Option.toList_none, ids_append,
      ids_cons, ids_nil]
    abel

theorem OwnsPushed.refill (h : OwnsPushed m d) (assembled : Bool) :
    Call.Meets (· = d) (refill cfg assembled) (fun _ => Owns m) fun _ _ => True := by
  rintro d rfl
  rcases refill_run cfg assembled d with hb | ⟨b, rest, hpool, hrun⟩
  · rw [hb]
    trivial
  · have h1 : Owns m { d with tx_buffer := some b, available_buffer_pool := ⟨rest⟩ } := by
      refine ⟨?_, rfl, h.dcomp_buffer⟩
      rw [← h.held]
      simp only [PacketDecoder.held, hpool, h.tx_buffer, Option.toList_some, Option.toList_none,
        ids_cons, ids_nil]
      abel
    rw [hrun]
    cases assembled with
    | true => exact h1.cleared.flushed
    | false => exact h1.cleared

/-- **`decode`** adds the datagram's buffer. -/
theorem decode_owns (fuel : Nat) :
    Call.Meets (Owns m) (decode cfg fuel packetBuffer)
      (fun _ => Owns (m + {packetBuffer.id})) fun _ _ => True := by
  refine decode_meets (L := fun _ _ => Owns m) (P := fun _ _ => OwnsPushed m)
    (fun d h => ?_) (fun pos flag _ d h => ?_)
    (fun assembled pos d h => h.refill assembled d rfl) (fun pos flag _ d h => ?_)
    (fun _ _ _ _ => trivial)
  · obtain ⟨tx, dc, htx, hdc⟩ := h.exists_buffers
    refine (decodeHeader_meets htx).mono (fun _ h => h) (fun r d' ho => ?_) (fun _ _ h => h) d rfl
    cases ho with
    | short =>
      refine ⟨?_, by rw [Option.isSome_map]; exact h.tx_buffer, h.dcomp_buffer⟩
      rw [← h.held]
      simp only [PacketDecoder.held, ids_append, ids_cons, ids_nil, ids_map_clear]
      abel
    | refused _ hd1 =>
      rcases hd1 with rfl | rfl
      · exact h.refusing
      · exact (h.arrived _).refusing
    | passed => exact h.arrived _
  · obtain ⟨tx, dc, htx, hdc⟩ := h.exists_buffers
    refine (takeOption_meets htx hdc).mono (fun _ h => h) (fun r d' ho => ?_)
      (fun _ _ _ => trivial) d rfl
    have := h.outcome htx ho
    cases r <;> exact this
  · rw [finish_run]
    cases flag with
    | true => exact (h.pushInflight _).flushed
    | false => exact h.pushInflight _

theorem Starts.owns {available : List (PacketBuffer B)} (h : Starts cfg available d) :
    Owns (ids available) d := by
  obtain ⟨dc, tx, rest, rfl, rfl⟩ := h.eq
  refine ⟨?_, rfl, rfl⟩
  simp only [PacketDecoder.held, init, Option.toList_some, ids_cons, ids_nil, PacketBuffer.id_clear]
  abel

end PacketDecoder

/-! ## Both -/

/-- **An encoder owns its buffers**: those the pools were made with and those it was given, each in
one place; it has a `tx_buffer`, and a `comp_buffer` if a format is set. -/
structure PacketEncoder.Conserves (made given : List (PacketBuffer B))
    (format : PacketHeaderOptionFormatType) (e : PacketEncoder H B) : Prop where
  held : e.held = ids made + ids given
  once : (ids made + ids given).Nodup → e.held.Nodup
  tx_buffer : e.tx_buffer.isSome
  comp_buffer : format ≠ NONE → e.comp_buffer.isSome

/-- **A decoder owns its buffers** likewise; it has a `tx_buffer` and a `dcomp_buffer`. -/
structure PacketDecoder.Conserves (made given : List (PacketBuffer B)) (d : PacketDecoder H B) :
    Prop where
  held : d.held = ids made + ids given
  once : (ids made + ids given).Nodup → d.held.Nodup
  tx_buffer : d.tx_buffer.isSome
  dcomp_buffer : d.dcomp_buffer.isSome

/-- **No buffer is lost or duplicated**: not in a run of calls on an encoder or a decoder, nor in the
call after it. -/
theorem codec_conserves_buffers {ecfg : EncoderConfig} {libs : Compressors H}
    {format : PacketHeaderOptionFormatType} {seq : UInt32} {made : List (PacketBuffer B)}
    {ops : List (PacketEncoder.Op B)} {e0 e : PacketEncoder H B}
    (hestart : PacketEncoder.Starts libs format seq made e0)
    (herun : StepPath (PacketEncoder.Calls ecfg) e0 ops e) {dcfg : DecoderConfig H}
    {dmade pkts : List (PacketBuffer B)} {d0 d : PacketDecoder H B}
    (hdstart : PacketDecoder.Starts dcfg dmade d0)
    (hdrun : StepPath (PacketDecoder.Decodes dcfg) d0 pkts d) :
    (PacketEncoder.Conserves made (ops.flatMap PacketEncoder.Op.buffers) format e ∧
      ∀ op e', PacketEncoder.Calls ecfg e op e' → e'.held = e.held + ids op.buffers) ∧
    (PacketDecoder.Conserves dmade pkts d ∧
      ∀ pkt d', PacketDecoder.Decodes dcfg d pkt d' → d'.held = d.held + {pkt.id}) := by
  have he := hestart.owns_of_path herun
  have hd : PacketDecoder.Owns (ids dmade + ids pkts) d := by
    have h0 : PacketDecoder.Owns (ids dmade + ids ([] : List (PacketBuffer B))) d0 :=
      (add_zero (ids dmade)).symm ▸ hdstart.owns
    refine hdrun.invariant_prefix [] (I := fun pkts d => PacketDecoder.Owns
      (ids dmade + ids pkts) d) (fun done s pkt t hs hstep => ?_) h0
    rw [ids_append, ids_cons, ids_nil, add_zero, ← add_assoc]
    exact hstep.of_meets PacketDecoder.decode_owns hs
  refine ⟨⟨⟨he.held, fun h => he.held ▸ h, he.tx_buffer, he.comp_buffer⟩, ?_⟩,
    ⟨hd.held, fun h => hd.held ▸ h, hd.tx_buffer, hd.dcomp_buffer⟩, ?_⟩
  · rintro op e' ⟨fuel, hrun⟩
    rw [he.held]
    exact ((PacketEncoder.step_owns op).ok he hrun).held
  · intro pkt d' hstep
    rw [hd.held]
    exact (hstep.of_meets PacketDecoder.decode_owns hd).held

/-- Two frames with LZ4, the second of which it does not compress, and a datagram with a frame. -/
theorem codec_conserves_buffers_lz4 :
    let T := Tunnel.smallestLZ4 (.inet 58023 #v[192, 0, 2, 1])
    let frames : List (PacketBuffer T.B) :=
      [.ofData 20 [1, 2, 3] (by decide), .ofData 21 (List.replicate 60 0) (by decide)]
    let datagram : PacketBuffer T.B := .ofData 22 ((PacketEncoder.header 1 1).bytes .little ++
      (PacketHeaderOption.mk COMPLETE_PACKET 3 COMPRESSED_LZ4 4 0 0).bytes ++ [48, 1, 2, 3])
      (by decide)
    ∃ (e : PacketEncoder (List (List UInt8)) T.B) (d : PacketDecoder (List (List UInt8)) T.B),
      e.tx_buffer_pool.pool.length = 1 ∧ d.tx_buffer_pool.pool.length = 1 ∧
      PacketEncoder.Conserves (PacketBuffer.fresh 0 10) frames COMPRESSED_LZ4 e ∧
      PacketDecoder.Conserves (PacketBuffer.fresh 0 10) [datagram] d := by
  intro T frames datagram
  obtain ⟨⟨⟩, e, herun, hesent⟩ := Call.exists_of_okAnd
    (p := fun e => e.tx_buffer_pool.pool.length == 1)
    (r := T.encoderRun 10 1 (PacketBuffer.fresh 0 10) (frames.map .encode ++ [.flush]))
    (by decide +kernel)
  obtain ⟨⟨⟩, d, hdrun, hdsent⟩ := Call.exists_of_okAnd
    (p := fun d => d.tx_buffer_pool.pool.length == 1)
    (r := T.decoderRun (fun _ => 0) 10 (PacketBuffer.fresh 0 10) [datagram]) (by decide +kernel)
  obtain ⟨e0, hestart, hepath⟩ := PacketEncoder.path_of_encoderRun herun
  obtain ⟨d0, hdstart, hdpath⟩ := PacketDecoder.path_of_decoderRun hdrun
  have h := codec_conserves_buffers hestart hepath hdstart hdpath
  exact ⟨e, d, beq_iff_eq.mp hesent, beq_iff_eq.mp hdsent, h.1.1, h.2.1⟩

end SuperEthd
