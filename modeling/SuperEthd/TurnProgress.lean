import SuperEthd.EnoughBuffers

/-! # A turn returns

The turns of a call are the call, cut where it waits.  A call that is given enough buffers returns, so a
turn returns whatever is in the available pool, but that one behind a wait takes a buffer from it. -/
namespace SuperEthd
open PacketHeaderOptionType PacketHeaderOptionFormatType

namespace PacketEncoder
variable {H : Type} {B : Nat} {cfg : EncoderConfig} {fuel : Nat} {e e1 e2 : PacketEncoder H B}
  {packetBuffer : PacketBuffer B} {op : Op B}

/-! ## Where the call returns -/

/-- The end of `encode`. -/
theorem exists_fullTurn
    (h : (do flushIfFull cfg; release packetBuffer : EncoderCall H B Unit).run e = .ok () e2) :
    ∃ wait e1, (fullTurn cfg packetBuffer).run e = .ok wait e1 := by
  rw [flushIfFull, bind_assoc] at h
  obtain ⟨size, ea, hsize, h⟩ := Call.run_bind_eq_ok.mp h
  rw [fullTurn, Call.run_bind_of_ok hsize]
  split at h
  case isTrue hlt =>
    rw [bind_assoc, _flush_eq, bind_assoc] at h
    obtain ⟨waits, eb, hflush, h⟩ := Call.run_bind_eq_ok.mp h
    rw [if_pos hlt, Call.run_bind_of_ok hflush]
    cases waits with
    | true => exact ⟨_, _, rfl⟩
    | false =>
      rw [if_neg Bool.false_ne_true, pure_bind] at h
      obtain ⟨_, ec, hinflight, hrelease⟩ := Call.run_bind_eq_ok.mp h
      exact ⟨none, e2, (Call.run_bind_of_ok hinflight).trans (Call.run_bind_of_ok hrelease)⟩
  case isFalse hlt =>
    rw [if_neg hlt]
    exact ⟨none, e2, Call.run_bind_of_ok (by rwa [pure_bind] at h)⟩

section Loop
variable {original_size : Nat} {format : PacketHeaderOptionFormatType} {part : UInt8} {packet_pos : Nat}

/-- The loop, with the fuel that it has there. -/
theorem exists_partTurn
    (h : (loopRest cfg fuel original_size format packetBuffer part packet_pos).run e = .ok () e2) :
    ∃ wait e1, (partTurn cfg original_size format packetBuffer fuel part packet_pos).run e = .ok wait e1 := by
  have hdone : ¬packet_pos < packetBuffer.dataSize →
      ∃ wait e1, (do _flushInflight; fullTurn cfg packetBuffer : EncoderCall H B _).run e = .ok wait e1 := by
    intro hpos
    rw [loopRest_of_done hpos] at h
    obtain ⟨_, ea, hinflight, hfull⟩ := Call.run_bind_eq_ok.mp h
    rw [Call.run_bind_of_ok hinflight]
    exact exists_fullTurn hfull
  induction fuel generalizing part packet_pos e with
  | zero =>
    unfold partTurn
    split
    case isTrue hpos =>
      rw [loopRest, partialLoop, if_pos hpos] at h
      cases h
    case isFalse hpos => exact hdone hpos
  | succ fuel ih =>
    have hnext : ∀ {e : PacketEncoder H B} (part : UInt8) (packet_pos : Nat),
        (loopRest cfg fuel original_size format packetBuffer part packet_pos).run e = .ok () e2 →
        ∃ wait e1, (partTurn cfg original_size format packetBuffer fuel part packet_pos).run e = .ok wait e1 := by
      intro e part packet_pos h
      refine ih h fun hpos => ?_
      rw [loopRest_of_done hpos] at h
      obtain ⟨_, ea, hinflight, hfull⟩ := Call.run_bind_eq_ok.mp h
      rw [Call.run_bind_of_ok hinflight]
      exact exists_fullTurn hfull
    unfold partTurn
    split
    case isFalse hpos => exact hdone hpos
    case isTrue hpos =>
      rw [loopRest_succ hpos] at h
      obtain ⟨part_size, ea, hlay, h⟩ := Call.run_bind_eq_ok.mp h
      rw [flushIfExact, bind_assoc] at h
      obtain ⟨size, eb, hsize, h⟩ := Call.run_bind_eq_ok.mp h
      rw [Call.run_bind_of_ok hlay, Call.run_bind_of_ok hsize]
      split at h
      case isTrue hexact =>
        rw [_flush_eq, bind_assoc] at h
        obtain ⟨waits, ec, hflush, h⟩ := Call.run_bind_eq_ok.mp h
        rw [if_pos hexact, Call.run_bind_of_ok hflush]
        cases waits with
        | true => exact ⟨_, _, rfl⟩
        | false => exact hnext _ _ h
      case isFalse hexact =>
        rw [if_neg hexact]
        exact hnext _ _ h

end Loop

/-- **The first turn.** -/
theorem exists_startTurn_of_step (h : (step cfg fuel op).run e = .ok () e2) :
    ∃ wait e1, (startTurn cfg fuel op).run e = .ok wait e1 := by
  cases op with
  | encode raw =>
    by_cases hlarge : raw.dataSize % 65536 > cfg.l2mtu
    · simp only [step, encode, if_pos hlarge] at h
      obtain ⟨_, ea, hpush, hdone⟩ := Call.run_bind_eq_ok.mp h
      rw [startTurn, if_pos hlarge, Call.run_bind_of_ok hpush]
      exact ⟨none, ea, rfl⟩
    · simp only [step, encode, if_neg hlarge] at h
      obtain ⟨_, ea, hmodify, h⟩ := Call.run_bind_eq_ok.mp h
      obtain ⟨⟨buf, format⟩, eb, hcompress, h⟩ := Call.run_bind_eq_ok.mp h
      rw [startTurn, if_neg hlarge, Call.run_bind_of_ok hmodify, Call.run_bind_of_ok hcompress]
      simp only [addPacket, bind_assoc] at h
      obtain ⟨max, ec, hmax, h⟩ := Call.run_bind_eq_ok.mp h
      simp only [addTurn, Call.run_bind_of_ok hmax]
      split at h
      case isTrue hsplit =>
        rw [if_pos hsplit]
        simp only [bind_assoc] at h
        exact exists_partTurn h
      case isFalse hsplit =>
        obtain ⟨_, ed, hadd, h⟩ := Call.run_bind_eq_ok.mp h
        rw [if_neg hsplit, Call.run_bind_of_ok hadd]
        exact exists_fullTurn h
  | flush =>
    simp only [step, flush, _flush_eq, bind_assoc] at h
    obtain ⟨waits, ea, hflush, h⟩ := Call.run_bind_eq_ok.mp h
    rw [startTurn, Call.run_bind_of_ok hflush]
    cases waits with
    | true => exact ⟨_, _, rfl⟩
    | false =>
      rw [if_neg Bool.false_ne_true, pure_bind] at h
      rw [if_neg Bool.false_ne_true, Call.run_bind_of_ok h]
      exact ⟨none, e2, rfl⟩

/-- **The turn behind a wait.** -/
theorem exists_nextTurn_of_rest {w : EncoderWait B} (h : (rest cfg fuel (some w)).run e = .ok () e2) :
    ∃ e1 wait e3, _getTxBuffer.run e = .ok () e1 ∧ (nextTurn cfg fuel w).run e1 = .ok wait e3 := by
  cases w with
  | flush =>
    obtain ⟨_, ea, hget, hinflight⟩ := Call.run_bind_eq_ok.mp h
    exact ⟨ea, none, e2, hget, Call.run_bind_of_ok hinflight⟩
  | part =>
    obtain ⟨_, ea, hget, h⟩ := Call.run_bind_eq_ok.mp h
    obtain ⟨wait, e3, hpart⟩ := exists_partTurn h
    exact ⟨ea, wait, e3, hget, hpart⟩
  | full =>
    obtain ⟨_, ea, hget, h⟩ := Call.run_bind_eq_ok.mp h
    obtain ⟨_, eb, hinflight, hrelease⟩ := Call.run_bind_eq_ok.mp h
    exact ⟨ea, none, e2, hget, (Call.run_bind_of_ok hinflight).trans (Call.run_bind_of_ok hrelease)⟩

/-! ## What a turn pushes -/

section Turns
variable {sent : List (PacketBuffer B)}

/-- The call only adds to the TX pool. -/
def Grows {α : Type} (sent : List (PacketBuffer B)) (x : EncoderCall H B α) : Prop :=
  Call.Meets (fun e => sent <+: e.tx_buffer_pool.pool) x (fun _ e => sent <+: e.tx_buffer_pool.pool)
    fun _ _ => True

/-- The turn only adds to the TX pool, and does so when the call waits behind it. -/
def Turns (sent : List (PacketBuffer B)) (x : EncoderCall H B (Option (EncoderWait B))) : Prop :=
  Call.Meets (fun e => sent <+: e.tx_buffer_pool.pool) x
    (fun wait e => sent <+: e.tx_buffer_pool.pool ∧ (wait.isSome → e.tx_buffer_pool.pool ≠ sent)) fun _ _ => True

theorem Pushes.grows {α : Type} {x : EncoderCall H B α} (hx : Pushes x) : Grows sent x :=
  fun e h => (hx sent e.accepted).mono (fun _ h => h) (fun _ _ h => h.1) (fun _ _ h => h) e ⟨h, rfl⟩

/-- A turn behind which the call is through. -/
theorem Grows.turns {α : Type} {x : EncoderCall H B α} (hx : Grows sent x) :
    Turns sent (do let _ ← x; return none : EncoderCall H B (Option (EncoderWait B))) :=
  Call.Meets.bind hx fun _ _ h => ⟨h, fun heq => by cases heq⟩

theorem _flushTx_turns : Call.Meets (fun e : PacketEncoder H B => sent <+: e.tx_buffer_pool.pool) (_flushTx cfg)
    (fun waits e => sent <+: e.tx_buffer_pool.pool ∧ (waits = true → e.tx_buffer_pool.pool ≠ sent))
    fun _ _ => True := by
  refine .bind_get fun e h => bind_deref_anything fun tx _ => .ite (fun _ => .returns rfl ⟨h, fun heq => by cases heq⟩)
    fun _ => bind_ofExcept_anything fun tx' => ?_
  rw [BufferPool.push_packetBuffer]
  refine .bind_returns rfl (.bind_returns rfl (.returns rfl ⟨h.trans (List.prefix_append _ _), fun _ heq => ?_⟩))
  have hlen := h.length_le
  rw [← heq, List.length_append, List.length_singleton] at hlen
  omega

/-- A flush in a turn, behind which the call waits if a datagram went. -/
theorem Turns.flush {wait : EncoderWait B} {x : EncoderCall H B (Option (EncoderWait B))} (hx : Turns sent x) :
    Turns sent (do if ← _flushTx cfg then return some wait else x : EncoderCall H B (Option (EncoderWait B))) :=
  _flushTx_turns.bind fun _ => .ite (fun hwaits _ h => ⟨h.1, fun _ => h.2 hwaits⟩) fun _ e h => hx e h.1

theorem fullTurn_turns (packetBuffer : PacketBuffer B) :
    Turns sent (fullTurn cfg packetBuffer : EncoderCall H B (Option (EncoderWait B))) := by
  have hrelease : Turns sent (do release packetBuffer; return none : EncoderCall H B (Option (EncoderWait B))) :=
    (release_pushes packetBuffer).grows.turns
  refine (_getMaxPayloadSize_pushes _).grows.bind fun _ => .ite (fun _ => Turns.flush ?_) fun _ => hrelease
  exact _flushInflight_pushes.grows.bind fun _ => hrelease

theorem partTurn_turns (original_size : Nat) (format : PacketHeaderOptionFormatType) (packetBuffer : PacketBuffer B)
    (fuel : Nat) (part : UInt8) (packet_pos : Nat) :
    Turns sent (partTurn cfg original_size format packetBuffer fuel part packet_pos :
      EncoderCall H B (Option (EncoderWait B))) := by
  have hdone : Turns sent (do _flushInflight; fullTurn cfg packetBuffer : EncoderCall H B (Option (EncoderWait B))) :=
    _flushInflight_pushes.grows.bind fun _ => fullTurn_turns packetBuffer
  induction fuel generalizing part packet_pos with
  | zero =>
    unfold partTurn
    exact .ite (fun _ _ _ => trivial) fun _ => hdone
  | succ fuel ih =>
    unfold partTurn
    refine .ite (fun _ => ?_) fun _ => hdone
    refine (layPart_pushes _ _ _ _ _).grows.bind fun _ => txDataSize_pushes.grows.bind fun _ => ?_
    exact .ite (fun _ => Turns.flush (ih _ _)) fun _ => ih _ _

theorem compressPacket_pushes (raw : PacketBuffer B) (original_size : Nat) :
    Pushes (compressPacket raw original_size :
      EncoderCall H B (PacketBuffer B × PacketHeaderOptionFormatType)) := by
  refine fun sent accepted => .bind_get fun e h => .ite (fun _ => .returns rfl h) fun _ => ?_
  refine bind_deref_anything fun stream _ => bind_deref_anything fun comp _ => bind_ofExcept_anything fun comp' => ?_
  refine .bind_returns rfl (.ite (fun _ => bind_ofExcept_anything fun _ => ?_) fun _ => .returns rfl h)
  exact .bind_returns rfl (.bind_returns rfl (.returns rfl h))

theorem startTurn_turns (op : Op B) :
    Turns sent (startTurn cfg fuel op : EncoderCall H B (Option (EncoderWait B))) := by
  cases op with
  | encode raw =>
    refine .ite (fun _ => ?_) fun _ => ?_
    · have hpush : Pushes (pushAvailable raw : EncoderCall H B Unit) :=
        fun _ _ => .bind_get fun _ h => bind_ofExcept_anything fun _ => .returns rfl h
      exact hpush.grows.turns
    · have hmodify : Grows sent (modify fun e => { e with accepted := e.accepted ++ [raw.data] } :
          EncoderCall H B PUnit) := fun _ h => h
      refine hmodify.bind fun _ => (compressPacket_pushes raw _).grows.bind fun _ => ?_
      refine (_getMaxPayloadSize_pushes _).grows.bind fun _ => .ite (fun _ => partTurn_turns _ _ _ _ _ _) fun _ => ?_
      exact (addOption_pushes _ _).grows.bind fun _ => fullTurn_turns _
  | flush => exact Turns.flush _flushInflight_pushes.grows.turns

theorem nextTurn_turns (w : EncoderWait B) :
    Turns sent (nextTurn cfg fuel w : EncoderCall H B (Option (EncoderWait B))) := by
  cases w with
  | flush => exact _flushInflight_pushes.grows.turns
  | part => exact partTurn_turns _ _ _ _ _ _
  | full => exact _flushInflight_pushes.grows.bind fun _ => (release_pushes _).grows.turns

/-- What a turn has pushed. -/
theorem Turns.exists_datagrams {x : EncoderCall H B (Option (EncoderWait B))} {wait : Option (EncoderWait B)}
    (hx : Turns e.tx_buffer_pool.pool x) (hrun : x.run e = .ok wait e1) :
    ∃ datagrams, e1.tx_buffer_pool.pool = e.tx_buffer_pool.pool ++ datagrams ∧ (wait.isSome → datagrams ≠ []) := by
  obtain ⟨⟨datagrams, heq⟩, hsome⟩ := hx.ok List.prefix_rfl hrun
  refine ⟨datagrams, heq.symm, ?_⟩
  rintro hwait rfl
  exact hsome hwait (heq.symm.trans (List.append_nil _))

end Turns

/-! ## What a turn leaves in `tx_buffer` -/

section Loaded

/-- There is more in `tx_buffer` than this. -/
def Loaded (size : Nat) (e : PacketEncoder H B) : Prop :=
  ∃ tx, e.tx_buffer = some tx ∧ size ≤ tx.dataSize

/-- The call leaves `tx_buffer` with no less in it. -/
def Loads {α : Type} (size size' : Nat) (x : EncoderCall H B α) : Prop :=
  Call.Meets (Loaded size) x (fun _ => Loaded size') fun _ _ => True

/-- Behind the turn there is this much in `tx_buffer`, if the call is through. -/
def Ends (size size' : Nat) (x : EncoderCall H B (Option (EncoderWait B))) : Prop :=
  Call.Meets (Loaded size) x (fun wait e => wait = none → Loaded size' e) fun _ _ => True

variable {size : Nat}

namespace Loads
variable {α β : Type} {size' size'' : Nat} {x : EncoderCall H B α}

theorem pure (a : α) : Loads size size (Pure.pure a : EncoderCall H B α) := fun _ h => h

theorem bind {f : α → EncoderCall H B β} (hx : Loads size size' x) (hf : ∀ a, Loads size' size'' (f a)) :
    Loads size size'' (x >>= f) :=
  Call.Meets.bind hx hf

/-- And then the end of a turn. -/
theorem ends {f : α → EncoderCall H B (Option (EncoderWait B))} (hx : Loads size size' x)
    (hf : ∀ a, Ends size' size'' (f a)) : Ends size size'' (x >>= f) :=
  Call.Meets.bind hx hf

end Loads

theorem txDataSize_loads : Loads size size (txDataSize : EncoderCall H B Nat) :=
  .bind_get fun _ h => bind_deref_anything fun _ _ => .returns rfl h

theorem _getMaxPayloadSize_loads (n : Nat) : Loads size size (_getMaxPayloadSize cfg n : EncoderCall H B Nat) :=
  .bind_get fun _ h => bind_deref_anything fun _ _ => .ite (fun _ => .returns rfl h) fun _ => .returns rfl h

theorem _flushInflight_loads : Loads size size (_flushInflight : EncoderCall H B Unit) :=
  .bind_get fun _ h => .ite (fun _ => .returns rfl h) fun _ => bind_ofExcept_anything fun _ => .returns rfl h

theorem release_loads (packetBuffer : PacketBuffer B) :
    Loads size size (release packetBuffer : EncoderCall H B Unit) :=
  .bind_get fun e h => .ite (fun _ => .returns rfl h) fun _ => .bind_get fun e' heq => by
    subst heq
    exact bind_ofExcept_anything fun _ => .returns rfl h

theorem compressPacket_loads (raw : PacketBuffer B) (original_size : Nat) :
    Loads size size (compressPacket raw original_size :
      EncoderCall H B (PacketBuffer B × PacketHeaderOptionFormatType)) := by
  refine .bind_get fun e h => .ite (fun _ => .returns rfl h) fun _ => ?_
  refine bind_deref_anything fun stream _ => bind_deref_anything fun comp _ => bind_ofExcept_anything fun comp' => ?_
  refine .bind_returns rfl (.ite (fun _ => bind_ofExcept_anything fun _ => ?_) fun _ => .returns rfl h)
  exact .bind_returns rfl (.bind_returns rfl (.returns rfl h))

/-- An option is as long as its header at least. -/
theorem addOption_loads (option : PacketHeaderOption) (payload : List UInt8) :
    Loads size (size + PacketHeaderOption.size) (addOption option payload : EncoderCall H B Unit) := by
  rintro e ⟨tx, htx, hsize⟩
  refine (Call.Meets.bind_get (P := (· = e)) fun e' heq => ?_ : Call.Meets (· = e) _ _ _) e rfl
  subst heq
  refine bind_deref_anything fun tx' htx' => ?_
  obtain rfl := Option.some.inj (htx.symm.trans htx')
  refine .bind_ofExcept (fun tx1 _ => .bind_ofExcept (fun tx2 h2 => .bind_ofExcept (fun tx3 h3 => ?_) ?_) ?_) ?_
  · refine .returns rfl ⟨tx3, rfl, ?_⟩
    rw [PacketBuffer.append_dataSize h3, PacketBuffer.setDataSize_dataSize h2]
    omega
  · exact fun _ _ _ _ => trivial
  · exact fun _ _ _ _ => trivial
  · exact fun _ _ _ _ => trivial

theorem setOptionType_loads (pos : Nat) (type : PacketHeaderOptionType) :
    Loads size size (setOptionType pos type : EncoderCall H B Unit) := by
  rintro e ⟨tx, htx, hsize⟩
  refine (Call.Meets.bind_get (P := (· = e)) fun e' heq => ?_ : Call.Meets (· = e) _ _ _) e rfl
  subst heq
  refine bind_deref_anything fun tx' htx' => .bind_ofExcept (fun tx1 h1 => ?_) fun _ _ _ _ => trivial
  obtain rfl := Option.some.inj (htx.symm.trans htx')
  exact .returns rfl ⟨tx1, rfl, (PacketBuffer.writeAt_dataSize h1).symm ▸ hsize⟩

theorem layPart_loads (original_size : Nat) (format : PacketHeaderOptionFormatType) (buf : PacketBuffer B)
    (part : UInt8) (packet_pos : Nat) : Loads size (size + PacketHeaderOption.size)
      (layPart cfg original_size format buf part packet_pos : EncoderCall H B Nat) := by
  refine (_getMaxPayloadSize_loads _).bind fun _ => Loads.bind ?_ fun _ => .pure _
  refine txDataSize_loads.bind fun _ => (addOption_loads _ _).bind fun _ => ?_
  exact .ite (fun _ => setOptionType_loads _ _) fun _ => Loads.pure ()

/-- A datagram with an option in it goes. -/
theorem _flushTx_waits (hsize : PacketHeader.size < size) :
    Call.Meets (Loaded size) (_flushTx cfg : EncoderCall H B Bool) (fun waits _ => waits = true) fun _ _ => True := by
  rintro e ⟨tx, htx, hle⟩
  refine (Call.Meets.bind_get (P := (· = e)) fun e' heq => ?_ : Call.Meets (· = e) _ _ _) e rfl
  subst heq
  refine bind_deref_anything fun tx' htx' => .ite (fun h8 => ?_) fun _ => ?_
  · obtain rfl := Option.some.inj (htx.symm.trans htx')
    omega
  · exact bind_ofExcept_anything fun _ => bind_ofExcept_anything fun _ => .bind_returns rfl (.returns rfl rfl)

/-- Then the call waits. -/
theorem flush_ends {wait : EncoderWait B} {x : EncoderCall H B (Option (EncoderWait B))}
    (hsize : PacketHeader.size < size) :
    Ends size size (do if ← _flushTx cfg then return some wait else x : EncoderCall H B (Option (EncoderWait B))) :=
  (_flushTx_waits hsize).bind fun _ => .ite (fun _ _ _ heq => by cases heq) fun hnot _ hwaits => absurd hwaits hnot

theorem fullTurn_ends (packetBuffer : PacketBuffer B) (hsize : PacketHeader.size < size) :
    Ends size size (fullTurn cfg packetBuffer : EncoderCall H B (Option (EncoderWait B))) := by
  refine (_getMaxPayloadSize_loads _).ends fun _ => .ite (fun _ => flush_ends hsize) fun _ => ?_
  exact (release_loads _).ends fun _ e h _ => h

/-- The loop over the parts, behind one of them. -/
theorem partTurn_ends (original_size : Nat) (format : PacketHeaderOptionFormatType) (packetBuffer : PacketBuffer B)
    (fuel : Nat) (part : UInt8) (packet_pos : Nat) (hsize : PacketHeader.size < size) :
    Ends size size (partTurn cfg original_size format packetBuffer fuel part packet_pos :
      EncoderCall H B (Option (EncoderWait B))) := by
  have hdone : Ends size size (do _flushInflight; fullTurn cfg packetBuffer :
      EncoderCall H B (Option (EncoderWait B))) :=
    _flushInflight_loads.ends fun _ => fullTurn_ends packetBuffer hsize
  have hlay : ∀ part packet_pos, Loads size size
      (layPart cfg original_size format packetBuffer part packet_pos : EncoderCall H B Nat) := fun part packet_pos =>
    (layPart_loads _ _ _ _ _).mono (fun _ h => h) (fun _ _ ⟨tx, htx, hle⟩ => ⟨tx, htx, by omega⟩) fun _ _ h => h
  induction fuel generalizing part packet_pos with
  | zero =>
    unfold partTurn
    exact .ite (fun _ _ _ => trivial) fun _ => hdone
  | succ fuel ih =>
    unfold partTurn
    refine .ite (fun _ => ?_) fun _ => hdone
    refine (hlay _ _).ends fun _ => txDataSize_loads.ends fun _ => ?_
    exact .ite (fun _ => flush_ends hsize) fun _ => ih _ _

/-- **An encoder that is through with a frame in one turn** still has it, or the end of it, in `tx_buffer`. -/
theorem startTurn_loaded {raw : PacketBuffer B} (hsmall : ¬raw.dataSize % 65536 > cfg.l2mtu) :
    Ends PacketHeader.size (PacketHeader.size + PacketHeaderOption.size)
      (startTurn cfg fuel (.encode raw) : EncoderCall H B (Option (EncoderWait B))) := by
  have hsize : PacketHeader.size < PacketHeader.size + PacketHeaderOption.size := by decide
  have hmodify : Loads PacketHeader.size PacketHeader.size
      (modify fun e => { e with accepted := e.accepted ++ [raw.data] } : EncoderCall H B PUnit) := fun _ h => h
  rw [startTurn, if_neg hsmall]
  refine hmodify.ends fun _ => (compressPacket_loads raw _).ends fun r => (_getMaxPayloadSize_loads _).ends fun max => ?_
  refine .ite (fun hlarge => ?_) fun _ => (addOption_loads _ _).ends fun _ => fullTurn_ends _ hsize
  -- a packet that does not fit is not empty, so that there is a first part
  have hpos : 0 < r.1.dataSize := Nat.lt_of_le_of_lt (Nat.zero_le _) hlarge
  cases fuel with
  | zero =>
    unfold partTurn
    rw [if_pos hpos]
    exact fun _ _ => trivial
  | succ fuel =>
    unfold partTurn
    rw [if_pos hpos]
    refine (layPart_loads _ _ _ _ _).ends fun _ => txDataSize_loads.ends fun _ => ?_
    exact .ite (fun _ => flush_ends hsize) fun _ => partTurn_ends _ _ _ _ _ _ hsize

/-- The flush of an encoder that has something in `tx_buffer` waits for a new one. -/
theorem startTurn_flush_waits {wait : Option (EncoderWait B)} (hsize : PacketHeader.size < size) (h : Loaded size e)
    (hrun : (startTurn cfg fuel .flush).run e = .ok wait e1) : wait = some .flush := by
  obtain ⟨waits, ea, hflush, hrun⟩ := Call.run_bind_eq_ok.mp hrun
  obtain rfl := (_flushTx_waits hsize).ok h hflush
  exact (EStateM.Result.ok.inj hrun).1.symm

/-- A flush that waits does so where it should, and is through behind that. -/
theorem startTurn_flush_wait {w : EncoderWait B} (hrun : (startTurn cfg fuel .flush).run e = .ok (some w) e1) :
    w = .flush := by
  obtain ⟨waits, ea, hflush, hrun⟩ := Call.run_bind_eq_ok.mp hrun
  cases waits with
  | true => exact (Option.some.inj (EStateM.Result.ok.inj hrun).1).symm
  | false =>
    obtain ⟨_, eb, hinflight, hdone⟩ := Call.run_bind_eq_ok.mp hrun
    cases (EStateM.Result.ok.inj hdone).1

theorem resume_flush (hB : PacketHeader.size ≤ B) {wait : Option (EncoderWait B)}
    (hrun : (resume cfg fuel .flush).run e = .ok wait e1) : wait = none ∧ e1.tx_buffer_pool = e.tx_buffer_pool := by
  obtain ⟨_, ea, hget, hrun⟩ := Call.run_bind_eq_ok.mp hrun
  obtain ⟨_, eb, hinflight, hdone⟩ := Call.run_bind_eq_ok.mp hrun
  obtain ⟨hnone, rfl⟩ := EStateM.Result.ok.inj hdone
  refine ⟨hnone.symm, ?_⟩
  rcases _getTxBuffer_run (e := e) hB with ⟨-, hblocked⟩ | ⟨tx, -, hgot⟩
  · cases hget.symm.trans hblocked
  · obtain ⟨-, rfl⟩ := EStateM.Result.ok.inj (hget.symm.trans hgot)
    obtain ⟨pool, hflushed⟩ := _flushInflight_run (e := { e with
      tx_buffer := some tx
      available_buffer_pool := ⟨e.available_buffer_pool.pool.tail⟩
      opt_len := 0
      packet_count := 0 })
    obtain ⟨-, rfl⟩ := EStateM.Result.ok.inj (hinflight.symm.trans hflushed)
    rfl

end Loaded

/-! ## An encoder in its place -/

section Tunnel
variable {T : Tunnel H} {e0 e : PacketEncoder H T.B} {op : Op T.B}

/-- **A first turn returns**, with what is in the available pool, and pushes datagrams. -/
theorem Idle.exists_startTurn (h : Idle T 1 e) (hlib : Bounded T) (op : Op T.B) :
    ∃ fuel wait e' datagrams, (startTurn T.encoder fuel op).run e = .ok wait e' ∧
      e'.tx_buffer_pool.pool = e.tx_buffer_pool.pool ++ datagrams ∧ (wait.isSome → datagrams ≠ []) := by
  obtain ⟨pool, e2, fuel, hstep⟩ := h.exists_calls hlib op []
  obtain ⟨wait, e1, hturn⟩ := exists_startTurn_of_step hstep
  -- it does not depend on the pool
  obtain ⟨pushed, -, hpools⟩ := run_withPool (fun p q e t => startTurn_agree op) hturn
  have hrun := hpools e.available_buffer_pool.pool
  obtain ⟨datagrams, hdatagrams, hsome⟩ := (startTurn_turns op).exists_datagrams hrun
  exact ⟨fuel, wait, _, datagrams, hrun, hdatagrams, hsome⟩

/-- **A turn behind a wait returns** when a buffer is free; it pushes a datagram if the call waits again. -/
theorem exists_resume {w : EncoderWait T.B} (b : PacketBuffer T.B) (pool : List (PacketBuffer T.B))
    (hidle : Idle T 1 e0) (hlib : Bounded T) (h : InCall T.encoder e0 op (some w) e) :
    ∃ fuel wait e' datagrams, (resume T.encoder fuel w).run (e.withPool (b :: pool)) = .ok wait e' ∧
      e'.tx_buffer_pool.pool = e.tx_buffer_pool.pool ++ datagrams ∧ (wait.isSome → datagrams ≠ []) := by
  obtain ⟨taken, pushed, hfinishes⟩ := finishes_iff_of_inCall h
  obtain ⟨rest, e2, hcall⟩ := hidle.exists_calls hlib op (taken ++ [b])
  rw [List.append_assoc] at hcall
  obtain ⟨fuel, hrest⟩ := (hfinishes _ e2).mpr hcall
  obtain ⟨e1, wait, e3, hget, hnext⟩ := exists_nextTurn_of_rest hrest
  obtain ⟨b', hb, hgets⟩ := _getTxBuffer_withPool hget
  obtain rfl : b = b' := (List.cons.inj hb).1
  obtain ⟨pushed', -, hpools⟩ := run_withPool (fun p q e t => nextTurn_agree w) hnext
  have hrun : (resume T.encoder fuel w).run (e.withPool (b :: pool)) = .ok wait (e3.withPool (pool ++ pushed')) :=
    (Call.run_bind_of_ok (hgets pool)).trans (hpools pool)
  have hturns : Turns e.tx_buffer_pool.pool (resume T.encoder fuel w : EncoderCall H T.B _) :=
    _getTxBuffer_pushes.grows.bind fun _ => nextTurn_turns w
  obtain ⟨datagrams, hdatagrams, hsome⟩ := hturns.exists_datagrams (e := e.withPool (b :: pool)) hrun
  exact ⟨fuel, wait, _, datagrams, hrun, hdatagrams, hsome⟩

end Tunnel

end PacketEncoder
end SuperEthd
