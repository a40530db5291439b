import SuperEthd.EncoderTurns

/-! # The buffers of a call that waits

Where a call waits it has handed its `tx_buffer` on, and the packet is in its hands; a turn loses no
buffer. -/
namespace SuperEthd
open PacketHeaderOptionType PacketHeaderOptionFormatType

namespace PacketEncoder
variable {H : Type} {B : Nat} {cfg : EncoderConfig} {m : Multiset Nat} {format : PacketHeaderOptionFormatType}
  {comp : Bool} {fuel : Nat} {packetBuffer : PacketBuffer B} {e : PacketEncoder H B}

/-- Behind a turn, with the packet counted in `m`.  Only the wait of `flush` leaves the `comp_buffer` to
be there already. -/
def Turned (m : Multiset Nat) (format : PacketHeaderOptionFormatType) (e : PacketEncoder H B) :
    Option (EncoderWait B) → Prop
  | none => OwnsIdle m format e
  | some .flush => ∃ comp, Owns m format false comp e ∧ (format ≠ NONE → comp = true)
  | some (.part _ _ packetBuffer _ _) => ∃ m' comp, m' + {packetBuffer.id} = m ∧ Owns m' format false comp e
  | some (.full packetBuffer) => ∃ m' comp, m' + {packetBuffer.id} = m ∧ Owns m' format false comp e

/-- What the encoder owns where its call waits. -/
theorem Turned.held {w : EncoderWait B} (h : Turned m format e (some w)) :
    e.held + ids w.buffers = m ∧ e.tx_buffer = none := by
  have htx : ∀ {m : Multiset Nat} {comp : Bool}, Owns m format false comp e → e.tx_buffer = none := fun h =>
    Option.not_isSome_iff_eq_none.mp (Bool.eq_false_iff.mp h.tx_buffer)
  cases w with
  | flush =>
    obtain ⟨comp, howns, -⟩ := h
    exact ⟨(add_zero _).trans howns.held, htx howns⟩
  | part =>
    obtain ⟨m', comp, hm, howns⟩ := h
    exact ⟨(congrArg (· + _) howns.held).trans hm, htx howns⟩
  | full =>
    obtain ⟨m', comp, hm, howns⟩ := h
    exact ⟨(congrArg (· + _) howns.held).trans hm, htx howns⟩

theorem _flushTx_owns : Call.Meets (Owns (H := H) (B := B) m format true comp) (_flushTx cfg)
    (fun waits => Owns m format (!waits) comp) Anything := by
  refine .bind_get fun e h => ?_
  obtain ⟨hheld, hformat, htx, hcomp⟩ := h
  obtain ⟨tx, htx⟩ := Option.isSome_iff_exists.mp htx
  rw [htx]
  refine .bind_returns (deref_some tx e) (.ite (fun _ => .returns rfl ?_) fun _ => ?_)
  · exact ⟨hheld, hformat, htx ▸ rfl, hcomp⟩
  refine .bind_ofExcept (fun tx' hwrite => ?_) fun _ _ _ _ => trivial
  rw [BufferPool.push_packetBuffer]
  refine .bind_returns rfl (.bind_returns rfl (.returns rfl ⟨?_, hformat, rfl, hcomp⟩))
  rw [← hheld]
  simp only [PacketEncoder.held, htx, Option.toList_some, Option.toList_none, ids_append, ids_cons, ids_nil,
    PacketBuffer.writeAt_id hwrite]
  abel

/-- The packet goes back, and the call is through. -/
theorem release_turned : Call.Meets (Owns (H := H) m format true comp)
    (do release packetBuffer; return none : EncoderCall H B (Option (EncoderWait B)))
    (fun wait e => Turned (m + {packetBuffer.id}) format e wait) Anything :=
  release_owns.bind fun _ _ h => h

theorem fullTurn_turned : Call.Meets (Owns (H := H) m format true comp) (fullTurn cfg packetBuffer)
    (fun wait e => Turned (m + {packetBuffer.id}) format e wait) Anything := by
  refine _getMaxPayloadSize_owns.bind fun _ => .ite (fun _ => ?_) fun _ => release_turned
  refine _flushTx_owns.bind fun waits => ?_
  cases waits with
  | true => exact fun e h => ⟨m, comp, rfl, h⟩
  | false => exact _flushInflight_owns.bind fun _ => release_turned

theorem layPart_owns {original_size packet_pos : Nat} {part : UInt8}
    {option_format : PacketHeaderOptionFormatType} :
    Call.Meets (Owns (H := H) m format true comp)
      (layPart cfg original_size option_format packetBuffer part packet_pos)
      (fun _ => Owns m format true comp) Anything := by
  refine _getMaxPayloadSize_owns.bind fun _ => ?_
  refine Call.Meets.bind (Q := fun _ => Owns m format true comp) ?_ fun _ _ h => h
  refine txDataSize_owns.bind fun _ => addOption_owns.bind fun _ => ?_
  exact .ite (fun _ => setOptionType_owns) fun _ => .pure (Q := fun _ => Owns m format true comp) ()

theorem partTurn_turned {original_size packet_pos : Nat} {part : UInt8}
    {option_format : PacketHeaderOptionFormatType} :
    Call.Meets (Owns (H := H) m format true comp)
      (partTurn cfg original_size option_format packetBuffer fuel part packet_pos)
      (fun wait e => Turned (m + {packetBuffer.id}) format e wait) Anything := by
  induction fuel generalizing part packet_pos with
  | zero =>
    unfold partTurn
    exact .ite (fun _ _ _ => trivial) fun _ => _flushInflight_owns.bind fun _ => fullTurn_turned
  | succ fuel ih =>
    unfold partTurn
    refine .ite (fun _ => ?_) fun _ => _flushInflight_owns.bind fun _ => fullTurn_turned
    refine layPart_owns.bind fun _ => txDataSize_owns.bind fun _ => .ite (fun _ => ?_) fun _ => ih
    refine _flushTx_owns.bind fun waits => ?_
    cases waits with
    | true => exact fun e h => ⟨m, comp, rfl, h⟩
    | false => exact ih

theorem addTurn_turned {original_size : Nat} {option_format : PacketHeaderOptionFormatType} :
    Call.Meets (Owns (H := H) m format true comp) (addTurn cfg fuel original_size option_format packetBuffer)
      (fun wait e => Turned (m + {packetBuffer.id}) format e wait) Anything := by
  refine _getMaxPayloadSize_owns.bind fun _ => .ite (fun _ => partTurn_turned) fun _ => ?_
  exact addOption_owns.bind fun _ => fullTurn_turned

/-- **The first turn of a call** adds the buffer that the call is given. -/
theorem startTurn_turned (op : Op B) : Call.Meets (OwnsIdle (H := H) m format) (startTurn cfg fuel op)
    (fun wait e => Turned (m + ids op.buffers) format e wait) Anything := by
  intro e h
  have howns : Owns m format true e.comp_buffer.isSome e := ⟨h.held, h.packet_format, h.tx_buffer, rfl⟩
  have hcomp : format ≠ NONE → e.comp_buffer.isSome = true := h.comp_buffer
  cases op with
  | flush =>
    have hflush : Call.Meets (Owns (H := H) (B := B) m format true e.comp_buffer.isSome)
        (startTurn cfg fuel .flush) (fun wait e' => Turned m format e' wait) Anything := by
      refine _flushTx_owns.bind fun waits => ?_
      cases waits with
      | true => exact fun e' h' => ⟨_, h', hcomp⟩
      | false => exact _flushInflight_owns.bind fun _ e' h' => h'.idle hcomp
    rw [Op.buffers, ids_nil, add_zero]
    exact hflush e howns
  | encode raw =>
    have hencode : Call.Meets (Owns (H := H) m format true e.comp_buffer.isSome)
        (startTurn cfg fuel (.encode raw)) (fun wait e' => Turned (m + {raw.id}) format e' wait) Anything := by
      refine .ite (fun _ => ?_) fun _ => ?_
      · exact pushAvailable_owns.bind fun _ e' h' => h'.idle hcomp
      refine Call.Meets.bind (Q := fun _ => Owns m format true e.comp_buffer.isSome)
        (fun e' h' => ⟨h'.held, h'.packet_format, h'.tx_buffer, h'.comp_buffer⟩) fun _ => ?_
      refine (compressPacket_owns hcomp).bind fun r => ?_
      obtain ⟨buf, option_format⟩ := r
      rintro e' ⟨m', comp', hm, h'⟩
      rw [← hm]
      exact addTurn_turned e' h'
    rw [Op.buffers, ids_cons, ids_nil, add_zero]
    exact hencode e howns

/-- **A turn behind a wait.** -/
theorem resume_turned (w : EncoderWait B) : Call.Meets (fun e : PacketEncoder H B => Turned m format e (some w))
    (resume cfg fuel w) (fun wait e => Turned m format e wait) Anything := by
  cases w with
  | flush =>
    rintro e ⟨comp, h, hcomp⟩
    refine (_getTxBuffer_owns.bind fun _ => _flushInflight_owns.bind (R := fun wait e => Turned m format e wait)
      fun _ e' h' => ?_) e h
    exact h'.idle hcomp
  | part =>
    rintro e ⟨m', comp, rfl, h⟩
    exact (_getTxBuffer_owns.bind fun _ => partTurn_turned) e h
  | full =>
    rintro e ⟨m', comp, rfl, h⟩
    exact (_getTxBuffer_owns.bind fun _ => _flushInflight_owns.bind fun _ => release_turned) e h

end PacketEncoder
end SuperEthd
