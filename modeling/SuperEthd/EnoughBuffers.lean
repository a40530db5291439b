import SuperEthd.CompressorFailure
import SuperEthd.EncoderThread
import SuperEthd.EncoderTurns

/-! # Enough buffers

A call takes one buffer for each part of its packet and one more at most, so that it does not wait when
as many are in the available pool.  A call that waits can therefore be carried on to its end
(`exists_calls_of_inCall`): what it has pushed so far is the beginning of what the whole call pushes. -/
namespace SuperEthd
open PacketHeaderOptionType PacketHeaderOptionFormatType

namespace PacketEncoder
variable {H : Type} {B : Nat} {α β γ : Type} {cfg : EncoderConfig}

/-- With `k` buffers in the available pool the call does not wait, and leaves what is beyond them. -/
def Spends (k : Nat) (x : EncoderCall H B α) : Prop :=
  ∀ n, Call.Meets (fun e => n + k ≤ e.available_buffer_pool.pool.length) x
    (fun _ e => n ≤ e.available_buffer_pool.pool.length) fun stop _ => stop ≠ .blocked

namespace Spends
variable {j k : Nat} {x : EncoderCall H B α}

theorem mono (hx : Spends j x) (h : j ≤ k) : Spends k x := by
  intro n
  refine (hx (n + (k - j))).mono (fun e he => ?_) (fun _ e he => ?_) fun _ _ h => h
  · omega
  · omega

theorem bind {f : α → EncoderCall H B β} (hx : Spends j x) (hf : ∀ a, Spends k (f a)) :
    Spends (j + k) (x >>= f) := by
  intro n
  refine Call.Meets.bind ((hx (n + k)).mono (fun e he => ?_) (fun _ _ h => h) fun _ _ h => h) fun a => hf a n
  rwa [Nat.add_assoc, Nat.add_comm k]

theorem pure (a : α) : Spends 0 (Pure.pure a : EncoderCall H B α) := fun _ _ h => h

theorem ite {c : Prop} [Decidable c] {y : EncoderCall H B α} (hx : Spends k x) (hy : Spends k y) :
    Spends k (if c then x else y) :=
  fun n => .ite (fun _ => hx n) fun _ => hy n

end Spends

theorem bind_deref_meets {P : PacketEncoder H B → Prop} {o : Option γ} {f : γ → EncoderCall H B α}
    {R : α → PacketEncoder H B → Prop} (some : ∀ a, o = some a → Call.Meets P (f a) R fun stop _ => stop ≠ .blocked) :
    Call.Meets P (deref o >>= f) R fun stop _ => stop ≠ .blocked := by
  cases o with
  | some a => exact some a rfl
  | none =>
    intro _ _ heq
    cases heq

/-- A step that may throw, but does not wait. -/
theorem bind_throws_meets {P : PacketEncoder H B → Prop} {r : Except Stop γ} {f : γ → EncoderCall H B α}
    {R : α → PacketEncoder H B → Prop} (hr : r ≠ .error .blocked)
    (ok : ∀ a, Call.Meets P (f a) R fun stop _ => stop ≠ .blocked) :
    Call.Meets P (Call.ofExcept r >>= f) R fun stop _ => stop ≠ .blocked := by
  refine .bind_ofExcept (fun a _ => ok a) fun stop _ hstop _ heq => ?_
  rw [heq] at hstop
  exact hr hstop

theorem txDataSize_spends : Spends 0 (txDataSize : EncoderCall H B Nat) :=
  fun _ => .bind_get fun _ h => bind_deref_meets fun _ _ => .returns rfl h

theorem _getMaxPayloadSize_spends (size : Nat) :
    Spends 0 (_getMaxPayloadSize cfg size : EncoderCall H B Nat) :=
  fun _ => .bind_get fun _ h => bind_deref_meets fun _ _ =>
    .ite (fun _ => .returns rfl h) fun _ => .returns rfl h

theorem _getTxBuffer_spends : Spends 1 (_getTxBuffer : EncoderCall H B Unit) := by
  refine fun n => .bind_get fun e h => ?_
  obtain ⟨b, rest, hpool⟩ := List.exists_cons_of_length_pos (show 0 < e.available_buffer_pool.pool.length by omega)
  have hpop : e.available_buffer_pool.pop_wait = .ok (b, ⟨rest⟩) := by
    rw [BufferPool.pop_wait, hpool]
  rw [hpop]
  refine .bind_returns rfl (bind_throws_meets (setDataSize_ne_blocked _ _) fun tx => .returns rfl ?_)
  rw [hpool, List.length_cons] at h
  exact Nat.le_of_succ_le_succ h

theorem _flush_spends : Spends 1 (_flush cfg : EncoderCall H B Unit) := by
  refine fun n => .bind_get fun e h => bind_deref_meets fun tx _ => .ite (fun _ => ?_) fun _ => ?_
  · exact .returns rfl (Nat.le_of_succ_le h)
  refine bind_throws_meets (writeAt_ne_blocked _ _ _) fun tx' => ?_
  rw [BufferPool.push_packetBuffer]
  refine .bind_returns rfl (.bind_returns rfl ?_)
  rintro _ rfl
  exact _getTxBuffer_spends n _ h

theorem _flushInflight_spends : Spends 0 (_flushInflight : EncoderCall H B Unit) := by
  refine fun n => .bind_get fun e h => .ite (fun _ => .returns rfl h) fun _ => ?_
  rw [BufferPool.pushBatch_packetBuffer]
  refine .bind_returns rfl (.returns rfl ?_)
  rw [List.length_append]
  omega

theorem pushAvailable_spends (packetBuffer : PacketBuffer B) :
    Spends 0 (pushAvailable packetBuffer : EncoderCall H B Unit) := by
  refine fun n => .bind_get fun e h => ?_
  rw [BufferPool.push_packetBuffer]
  refine .bind_returns rfl (.returns rfl ?_)
  rw [List.length_append]
  omega

theorem release_spends (packetBuffer : PacketBuffer B) :
    Spends 0 (release packetBuffer : EncoderCall H B Unit) := by
  refine fun n => .bind_get fun e h => .ite (fun _ => .returns rfl h) fun _ => ?_
  rintro _ rfl
  exact pushAvailable_spends packetBuffer n _ h

theorem addOption_spends (option : PacketHeaderOption) (payload : List UInt8) :
    Spends 0 (addOption option payload : EncoderCall H B Unit) := by
  refine fun n => .bind_get fun e h => bind_deref_meets fun tx _ => ?_
  refine bind_throws_meets (writeAt_ne_blocked _ _ _) fun _ => ?_
  refine bind_throws_meets (setDataSize_ne_blocked _ _) fun _ => ?_
  exact bind_throws_meets (append_ne_blocked _ _) fun _ => .returns rfl h

theorem setOptionType_spends (pos : Nat) (type : PacketHeaderOptionType) :
    Spends 0 (setOptionType pos type : EncoderCall H B Unit) :=
  fun _ => .bind_get fun _ h => bind_deref_meets fun _ _ =>
    bind_throws_meets (writeAt_ne_blocked _ _ _) fun _ => .returns rfl h

theorem compressPacket_spends (raw : PacketBuffer B) (original_size : Nat) :
    Spends 0 (compressPacket raw original_size :
      EncoderCall H B (PacketBuffer B × PacketHeaderOptionFormatType)) := by
  refine fun n => .bind_get fun e h => .ite (fun _ => .returns rfl h) fun _ => ?_
  refine bind_deref_meets fun stream _ => bind_deref_meets fun comp _ => ?_
  refine bind_throws_meets (writeAt_ne_blocked _ _ _) fun _ => .bind_returns rfl (.ite (fun _ => ?_) fun _ => ?_)
  · refine bind_throws_meets (setDataSize_ne_blocked _ _) fun _ => ?_
    exact .bind_returns rfl (.bind_returns rfl (.returns rfl h))
  · exact .returns rfl h

/-- A part takes a buffer if it fills its datagram. -/
theorem addPart_spends (original_size : Nat) (format : PacketHeaderOptionFormatType) (buf : PacketBuffer B)
    (part : UInt8) (packet_pos : Nat) :
    Spends 1 (addPart cfg original_size format buf part packet_pos : EncoderCall H B Nat) := by
  have hoption : ∀ option payload last, Spends 0 (addPartOption option payload last : EncoderCall H B Unit) := by
    intro option payload last
    refine txDataSize_spends.bind fun _ => (addOption_spends _ _).bind (k := 0) fun _ => ?_
    exact .ite (setOptionType_spends _ _) (.pure ())
  refine (_getMaxPayloadSize_spends _).bind (k := 1) fun _ => (hoption _ _ _).bind (k := 1) fun _ => ?_
  refine Spends.bind (j := 1) (k := 0) ?_ fun _ => .pure _
  exact txDataSize_spends.bind fun _ => .ite _flush_spends ((Spends.pure ()).mono (Nat.zero_le _))

theorem partialLoop_spends (original_size : Nat) (format : PacketHeaderOptionFormatType) (buf : PacketBuffer B)
    (fuel : Nat) (part : UInt8) (packet_pos : Nat) :
    Spends fuel (partialLoop cfg original_size format buf fuel part packet_pos : EncoderCall H B Unit) := by
  induction fuel generalizing part packet_pos with
  | zero =>
    unfold partialLoop
    refine .ite (fun _ _ _ heq => ?_) (.pure ())
    cases heq
  | succ fuel ih =>
    unfold partialLoop
    refine .ite ?_ ((Spends.pure ()).mono (Nat.zero_le _))
    exact ((addPart_spends _ _ _ _ _).bind fun _ => ih _ _).mono (Nat.add_comm 1 fuel).le

theorem addPacket_spends (fuel original_size : Nat) (format : PacketHeaderOptionFormatType)
    (buf : PacketBuffer B) : Spends fuel (addPacket cfg fuel original_size format buf : EncoderCall H B Unit) := by
  rw [← Nat.zero_add fuel]
  refine (_getMaxPayloadSize_spends _).bind fun _ => .ite ?_ ((addOption_spends _ _).mono (Nat.zero_le _))
  rw [Nat.zero_add]
  exact (partialLoop_spends _ _ _ _ _ _).bind (k := 0) fun _ => _flushInflight_spends

theorem flushIfFull_spends : Spends 1 (flushIfFull cfg : EncoderCall H B Unit) :=
  (_getMaxPayloadSize_spends _).bind fun _ => .ite (_flush_spends.bind (k := 0) fun _ => _flushInflight_spends)
    ((Spends.pure ()).mono (Nat.zero_le _))

/-- **What a call spends.** -/
theorem step_spends (fuel : Nat) (op : Op B) : Spends (fuel + 1) (step cfg fuel op : EncoderCall H B Unit) := by
  cases op with
  | encode raw =>
    refine .ite ?_ ?_
    · refine Spends.mono (j := 0) ?_ (Nat.zero_le _)
      exact (pushAvailable_spends raw).bind (k := 0) fun _ => .pure ()
    · have hmodify : Spends 0 (modify fun e => { e with accepted := e.accepted ++ [raw.data] } :
          EncoderCall H B PUnit) := fun _ _ h => h
      rw [← Nat.zero_add (fuel + 1)]
      refine hmodify.bind fun _ => ?_
      rw [← Nat.zero_add (fuel + 1)]
      refine (compressPacket_spends _ _).bind fun _ => (addPacket_spends _ _ _ _).bind fun _ => ?_
      exact flushIfFull_spends.bind (k := 0) fun _ => release_spends _
  | flush =>
    refine Spends.mono (j := 1) ?_ (Nat.le_add_left _ _)
    exact _flush_spends.bind (k := 0) fun _ => _flushInflight_spends

/-! ## What a call pushes -/

/-- The call pushes datagrams, and accepts no frame. -/
def Pushes (x : EncoderCall H B α) : Prop :=
  ∀ sent accepted, Call.Meets (fun e => sent <+: e.tx_buffer_pool.pool ∧ e.accepted = accepted) x
    (fun _ e => sent <+: e.tx_buffer_pool.pool ∧ e.accepted = accepted) fun _ _ => True

namespace Pushes
variable {x : EncoderCall H B α}

theorem bind {f : α → EncoderCall H B β} (hx : Pushes x) (hf : ∀ a, Pushes (f a)) : Pushes (x >>= f) :=
  fun sent accepted => (hx sent accepted).bind fun a => hf a sent accepted

theorem pure (a : α) : Pushes (Pure.pure a : EncoderCall H B α) := fun _ _ _ h => h

theorem ite {c : Prop} [Decidable c] {y : EncoderCall H B α} (hx : Pushes x) (hy : Pushes y) :
    Pushes (if c then x else y) :=
  fun sent accepted => .ite (fun _ => hx sent accepted) fun _ => hy sent accepted

end Pushes

theorem bind_deref_anything {P : PacketEncoder H B → Prop} {o : Option γ} {f : γ → EncoderCall H B α}
    {R : α → PacketEncoder H B → Prop} (some : ∀ a, o = some a → Call.Meets P (f a) R fun _ _ => True) :
    Call.Meets P (deref o >>= f) R fun _ _ => True := by
  cases o with
  | some a => exact some a rfl
  | none => exact fun _ _ => trivial

theorem bind_ofExcept_anything {P : PacketEncoder H B → Prop} {r : Except Stop γ} {f : γ → EncoderCall H B α}
    {R : α → PacketEncoder H B → Prop} (ok : ∀ a, Call.Meets P (f a) R fun _ _ => True) :
    Call.Meets P (Call.ofExcept r >>= f) R fun _ _ => True :=
  .bind_ofExcept (fun a _ => ok a) fun _ _ _ _ => trivial

theorem _getTxBuffer_pushes : Pushes (_getTxBuffer : EncoderCall H B Unit) :=
  fun _ _ => .bind_get fun _ h => bind_ofExcept_anything fun _ => bind_ofExcept_anything fun _ => .returns rfl h

theorem _flushInflight_pushes : Pushes (_flushInflight : EncoderCall H B Unit) :=
  fun _ _ => .bind_get fun _ h => .ite (fun _ => .returns rfl h) fun _ =>
    bind_ofExcept_anything fun _ => .returns rfl h

theorem _flushTx_pushes : Pushes (_flushTx cfg : EncoderCall H B Bool) := by
  refine fun sent accepted => .bind_get fun e h => bind_deref_anything fun tx _ => .ite (fun _ => .returns rfl h) fun _ => ?_
  refine bind_ofExcept_anything fun tx' => ?_
  rw [BufferPool.push_packetBuffer]
  exact .bind_returns rfl (.bind_returns rfl (.returns rfl ⟨h.1.trans (List.prefix_append _ _), h.2⟩))

theorem _flush_pushes : Pushes (_flush cfg : EncoderCall H B Unit) := by
  rw [_flush_eq]
  exact _flushTx_pushes.bind fun _ => .ite _getTxBuffer_pushes (.pure ())

theorem txDataSize_pushes : Pushes (txDataSize : EncoderCall H B Nat) :=
  fun _ _ => .bind_get fun _ h => bind_deref_anything fun _ _ => .returns rfl h

theorem _getMaxPayloadSize_pushes (size : Nat) : Pushes (_getMaxPayloadSize cfg size : EncoderCall H B Nat) :=
  fun _ _ => .bind_get fun _ h => bind_deref_anything fun _ _ =>
    .ite (fun _ => .returns rfl h) fun _ => .returns rfl h

theorem release_pushes (packetBuffer : PacketBuffer B) : Pushes (release packetBuffer : EncoderCall H B Unit) := by
  refine fun sent accepted => .bind_get fun e h => .ite (fun _ => .returns rfl h) fun _ => ?_
  refine .bind_get fun e' heq => bind_ofExcept_anything fun _ => ?_
  subst heq
  exact .returns rfl h

theorem flushIfFull_pushes : Pushes (flushIfFull cfg : EncoderCall H B Unit) :=
  (_getMaxPayloadSize_pushes _).bind fun _ => .ite (_flush_pushes.bind fun _ => _flushInflight_pushes) (.pure ())

theorem addOption_pushes (option : PacketHeaderOption) (payload : List UInt8) :
    Pushes (addOption option payload : EncoderCall H B Unit) :=
  fun _ _ => .bind_get fun _ h => bind_deref_anything fun _ _ =>
    bind_ofExcept_anything fun _ => bind_ofExcept_anything fun _ => bind_ofExcept_anything fun _ => .returns rfl h

theorem layPart_pushes (original_size : Nat) (format : PacketHeaderOptionFormatType) (buf : PacketBuffer B)
    (part : UInt8) (packet_pos : Nat) :
    Pushes (layPart cfg original_size format buf part packet_pos : EncoderCall H B Nat) := by
  have htype : ∀ pos type, Pushes (setOptionType pos type : EncoderCall H B Unit) :=
    fun pos type sent accepted => .bind_get fun e h => bind_deref_anything fun _ _ =>
      bind_ofExcept_anything fun _ => .returns rfl h
  refine (_getMaxPayloadSize_pushes _).bind fun _ => Pushes.bind ?_ fun _ => .pure _
  exact txDataSize_pushes.bind fun _ => (addOption_pushes _ _).bind fun _ => .ite (htype _ _) (.pure ())

theorem addPart_pushes (original_size : Nat) (format : PacketHeaderOptionFormatType) (buf : PacketBuffer B)
    (part : UInt8) (packet_pos : Nat) :
    Pushes (addPart cfg original_size format buf part packet_pos : EncoderCall H B Nat) := by
  rw [addPart_eq_layPart]
  refine (layPart_pushes _ _ _ _ _).bind fun _ => Pushes.bind ?_ fun _ => .pure _
  exact txDataSize_pushes.bind fun _ => .ite _flush_pushes (.pure ())

theorem partialLoop_pushes (original_size : Nat) (format : PacketHeaderOptionFormatType) (buf : PacketBuffer B)
    (fuel : Nat) (part : UInt8) (packet_pos : Nat) :
    Pushes (partialLoop cfg original_size format buf fuel part packet_pos : EncoderCall H B Unit) := by
  induction fuel generalizing part packet_pos with
  | zero =>
    unfold partialLoop
    exact .ite (fun _ _ _ _ => trivial) (.pure ())
  | succ fuel ih =>
    unfold partialLoop
    exact .ite ((addPart_pushes _ _ _ _ _).bind fun _ => ih _ _) (.pure ())

theorem rest_pushes (fuel : Nat) (wait : Option (EncoderWait B)) :
    Pushes (rest cfg fuel wait : EncoderCall H B Unit) := by
  cases wait with
  | none => exact .pure ()
  | some wait =>
    cases wait with
    | flush => exact _getTxBuffer_pushes.bind fun _ => _flushInflight_pushes
    | part =>
      refine _getTxBuffer_pushes.bind fun _ => (partialLoop_pushes _ _ _ _ _ _).bind fun _ => ?_
      exact _flushInflight_pushes.bind fun _ => flushIfFull_pushes.bind fun _ => release_pushes _
    | full =>
      exact _getTxBuffer_pushes.bind fun _ => _flushInflight_pushes.bind fun _ => release_pushes _

/-! ## The end of a call -/

variable {T : Tunnel H} {e0 e : PacketEncoder H T.B} {op : Op T.B} {wait : Option (EncoderWait T.B)}

/-- An encoder between two calls that is given enough buffers makes the next one. -/
theorem Idle.exists_calls (h : Idle T 1 e) (hlib : Bounded T) (op : Op T.B) (taken : List (PacketBuffer T.B)) :
    ∃ pool e', Calls T.encoder (e.withPool (taken ++ pool)) op e' := by
  let spare : List (PacketBuffer T.B) := List.replicate (T.B + 1) (.ofData 0 [] (Nat.zero_le _))
  have hidle : Idle T 1 (e.withPool (taken ++ spare)) := EncoderThread.idle_of_available h _
  have hlen : 0 + (T.B + 1) ≤ (e.withPool (taken ++ spare)).available_buffer_pool.pool.length := by
    rw [List.length_append, List.length_replicate]
    omega
  rcases (step_meets hlib (le_refl T.B) _ op).of_run ⟨hidle, rfl⟩ with ⟨_, e', hrun, -⟩ | ⟨stop, e', hrun, rfl⟩
  · exact ⟨spare, e', T.B, hrun⟩
  · exact absurd rfl ((step_spends T.B op 0).error hlen hrun)

/-- **A call that waits can be carried on to its end**, and what it has pushed so far comes first there. -/
theorem exists_calls_of_inCall (hidle : Idle T 1 e0) (hlib : Bounded T) (h : InCall T.encoder e0 op wait e) :
    ∃ pool e', Calls T.encoder (e0.withPool pool) op e' ∧
      e.tx_buffer_pool.pool <+: e'.tx_buffer_pool.pool ∧ e'.accepted = e.accepted := by
  obtain ⟨taken, pushed, hfinishes⟩ := finishes_iff_of_inCall h
  obtain ⟨pool, e', hcall⟩ := hidle.exists_calls hlib op taken
  obtain ⟨fuel, hrest⟩ := (hfinishes pool e').mpr hcall
  exact ⟨_, e', hcall, (rest_pushes fuel wait e.tx_buffer_pool.pool e.accepted).ok
    (s := e.withPool (pool ++ pushed)) ⟨List.prefix_rfl, rfl⟩ hrest⟩

end PacketEncoder
end SuperEthd
