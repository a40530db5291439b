import SuperEthd.EncoderRefinement
import SuperEthd.Ownership

/-! # Calls that wait

A call of the encoder waits in `_getTxBuffer`, and the other threads use the pools meanwhile: the socket
writer sends what the call has pushed so far, and may give it the buffer that it waits for.  A turn
is what a call does up to where it waits, or to its end.  In its turns a call does what it does in one
go when the buffers it takes are at hand (`calls_of_inCall`). -/
namespace SuperEthd
open PacketHeaderOptionType PacketHeaderOptionFormatType

/-- Where a call waits for a new `tx_buffer`. -/
inductive EncoderWait (B : Nat)
  /-- in the `_flush` of `flush` -/
  | flush
  /-- in that of a datagram that is full, in the loop over the parts of a packet; this part is next -/
  | part (original_size : Nat) (format : PacketHeaderOptionFormatType) (packetBuffer : PacketBuffer B)
      (part : UInt8) (packet_pos : Nat)
  /-- in that at the end of `encode` -/
  | full (packetBuffer : PacketBuffer B)

/-- The packet in the hands of `encode`. -/
def EncoderWait.buffers {B : Nat} : EncoderWait B → List (PacketBuffer B)
  | .flush => []
  | .part _ _ packetBuffer _ _ => [packetBuffer]
  | .full packetBuffer => [packetBuffer]

namespace PacketEncoder
variable {H : Type} {B : Nat} (cfg : EncoderConfig)

/-- `_flush` up to `_getTxBuffer`; says whether it comes to that. -/
def _flushTx : EncoderCall H B Bool := do
  let e ← get
  let tx_buffer ← deref e.tx_buffer
  if tx_buffer.dataSize = PacketHeader.size then
    return false
  else
    let sequence := nextSequence e.sequence
    let tx_buffer ← Call.ofExcept
      (tx_buffer.writeAt 0 ((header sequence e.opt_len).bytes cfg.host))
    let pool ← Call.ofExcept (e.tx_buffer_pool.push PacketBuffer.getBufferSize tx_buffer)
    set { e with sequence := sequence + 1, tx_buffer := none, tx_buffer_pool := pool }
    return true

/-- The end of `encode`: the datagram goes if it is full, and the packet is done with. -/
def fullTurn (packetBuffer : PacketBuffer B) : EncoderCall H B (Option (EncoderWait B)) := do
  if (← _getMaxPayloadSize cfg SETH_PACKET_MAX_SIZE) <
      PacketHeader.size + PacketHeaderOption.size * 10 then
    if ← _flushTx cfg then
      return some (.full packetBuffer)
    else
      _flushInflight
      release packetBuffer
      return none
  else
    release packetBuffer
    return none

/-- From a part of the packet on. -/
def partTurn (original_size : Nat) (format : PacketHeaderOptionFormatType) (packetBuffer : PacketBuffer B) :
    (fuel : Nat) → UInt8 → Nat → EncoderCall H B (Option (EncoderWait B))
  | fuel, part, packet_pos =>
    if packet_pos < packetBuffer.dataSize then
      match fuel with
      | 0 => throw .running
      | fuel + 1 => do
        let part_size ← layPart cfg original_size format packetBuffer part packet_pos
        if (← txDataSize) = cfg.l4mtu then
          if ← _flushTx cfg then
            return some (.part original_size format packetBuffer (part + 1) ((packet_pos + part_size) % 65536))
          else
            partTurn original_size format packetBuffer fuel (part + 1) ((packet_pos + part_size) % 65536)
        else
          partTurn original_size format packetBuffer fuel (part + 1) ((packet_pos + part_size) % 65536)
    else do
      _flushInflight
      fullTurn cfg packetBuffer

/-- The second half of `encode`. -/
def addTurn (fuel original_size : Nat) (format : PacketHeaderOptionFormatType) (packetBuffer : PacketBuffer B) :
    EncoderCall H B (Option (EncoderWait B)) := do
  if packetBuffer.dataSize > (← _getMaxPayloadSize cfg packetBuffer.dataSize) then
    partTurn cfg original_size format packetBuffer fuel 1 0
  else
    addOption
      { type := COMPLETE_PACKET
        packet_size := original_size
        format := format
        payload_length := packetBuffer.dataSize % 65536
        part := 0
        reserved := 0 }
      packetBuffer.data
    fullTurn cfg packetBuffer

/-- **The first turn of a call.** -/
def startTurn (fuel : Nat) : Op B → EncoderCall H B (Option (EncoderWait B))
  | .encode rawPacketBuffer => do
    let original_size := rawPacketBuffer.dataSize % 65536
    if original_size > cfg.l2mtu then
      pushAvailable rawPacketBuffer
      return none
    else
      modify fun e => { e with accepted := e.accepted ++ [rawPacketBuffer.data] }
      let (packetBuffer, format) ← compressPacket rawPacketBuffer original_size
      addTurn cfg fuel original_size format packetBuffer
  | .flush => do
    if ← _flushTx cfg then
      return some .flush
    else
      _flushInflight
      return none

/-- What comes behind `_getTxBuffer`. -/
def nextTurn (fuel : Nat) : EncoderWait B → EncoderCall H B (Option (EncoderWait B))
  | .flush => do
    _flushInflight
    return none
  | .part original_size format packetBuffer part packet_pos =>
    partTurn cfg original_size format packetBuffer fuel part packet_pos
  | .full packetBuffer => do
    _flushInflight
    release packetBuffer
    return none

/-- **The turn behind a wait.** -/
def resume (fuel : Nat) (wait : EncoderWait B) : EncoderCall H B (Option (EncoderWait B)) := do
  _getTxBuffer
  nextTurn cfg fuel wait

/-- **In a call** that was made on the encoder `e0`: the turns so far, between which the other threads use
the available pool, and where the call is. -/
inductive InCall (e0 : PacketEncoder H B) (op : Op B) : Option (EncoderWait B) → PacketEncoder H B → Prop
  | start {fuel : Nat} {wait : Option (EncoderWait B)} {e : PacketEncoder H B} :
      (startTurn cfg fuel op).run e0 = .ok wait e → InCall e0 op wait e
  | others {wait : Option (EncoderWait B)} {e : PacketEncoder H B} (pool : BufferPool (PacketBuffer B) B) :
      InCall e0 op wait e → InCall e0 op wait { e with available_buffer_pool := pool }
  | resume {fuel : Nat} {wait : EncoderWait B} {wait' : Option (EncoderWait B)} {e e' : PacketEncoder H B} :
      InCall e0 op (some wait) e → (resume cfg fuel wait).run e = .ok wait' e' → InCall e0 op wait' e'

/-! ## In one go -/

/-- What is left of `encode` from a part of the packet on. -/
def loopRest (fuel original_size : Nat) (format : PacketHeaderOptionFormatType) (packetBuffer : PacketBuffer B)
    (part : UInt8) (packet_pos : Nat) : EncoderCall H B Unit := do
  partialLoop cfg original_size format packetBuffer fuel part packet_pos
  _flushInflight
  flushIfFull cfg
  release packetBuffer

/-- What is left of a call. -/
def rest (fuel : Nat) : Option (EncoderWait B) → EncoderCall H B Unit
  | none => return ()
  | some .flush => do
    _getTxBuffer
    _flushInflight
  | some (.part original_size format packetBuffer part packet_pos) => do
    _getTxBuffer
    loopRest cfg fuel original_size format packetBuffer part packet_pos
  | some (.full packetBuffer) => do
    _getTxBuffer
    _flushInflight
    release packetBuffer

/-- What is left of a call returns. -/
def Finishes (wait : Option (EncoderWait B)) (e e' : PacketEncoder H B) : Prop :=
  ∃ fuel, (rest cfg fuel wait).run e = .ok () e'

theorem _flush_eq : (_flush cfg : EncoderCall H B Unit) = (do
    if ← _flushTx cfg then _getTxBuffer) := by
  simp only [_flush, _flushTx, bind_assoc]
  refine bind_congr fun e => bind_congr fun tx_buffer => ?_
  split
  · rw [pure_bind]
    rfl
  · simp only [bind_assoc, pure_bind, if_true]

variable {cfg} {fuel : Nat} {wait : Option (EncoderWait B)} {e e1 e2 : PacketEncoder H B}
  {packetBuffer : PacketBuffer B} {op : Op B}

/-- A call that is through. -/
theorem finishes_none_iff {x : EncoderCall H B Unit} (hx : x.run e = .ok () e1) :
    Finishes cfg none e1 e2 ↔ x.run e = .ok () e2 := by
  rw [hx]
  exact ⟨fun ⟨_, h⟩ => h, fun h => ⟨0, h⟩⟩

/-- The end of `encode`. -/
theorem finishes_fullTurn_iff (h : (fullTurn cfg packetBuffer).run e = .ok wait e1) :
    Finishes cfg wait e1 e2 ↔
      (do flushIfFull cfg; release packetBuffer : EncoderCall H B Unit).run e = .ok () e2 := by
  obtain ⟨size, ea, hsize, h⟩ := Call.run_bind_eq_ok.mp h
  rw [flushIfFull, bind_assoc, Call.run_bind_of_ok hsize]
  split at h
  case isTrue hlt =>
    obtain ⟨waits, eb, hflush, h⟩ := Call.run_bind_eq_ok.mp h
    rw [if_pos hlt, bind_assoc, _flush_eq, bind_assoc, Call.run_bind_of_ok hflush]
    cases waits with
    | true =>
      obtain ⟨rfl, rfl⟩ := EStateM.Result.ok.inj h
      exact ⟨fun ⟨_, h⟩ => h, fun h => ⟨0, h⟩⟩
    | false =>
      obtain ⟨_, ec, hinflight, h⟩ := Call.run_bind_eq_ok.mp h
      obtain ⟨_, ed, hrelease, hdone⟩ := Call.run_bind_eq_ok.mp h
      obtain ⟨rfl, rfl⟩ := EStateM.Result.ok.inj hdone
      exact finishes_none_iff ((Call.run_bind_of_ok hinflight).trans hrelease)
  case isFalse hlt =>
    rw [if_neg hlt, pure_bind]
    obtain ⟨_, eb, hrelease, hdone⟩ := Call.run_bind_eq_ok.mp h
    obtain ⟨rfl, rfl⟩ := EStateM.Result.ok.inj hdone
    exact finishes_none_iff hrelease

section Loop
variable {original_size : Nat} {format : PacketHeaderOptionFormatType} {part : UInt8} {packet_pos : Nat}

theorem loopRest_of_done (hpos : ¬packet_pos < packetBuffer.dataSize) :
    (loopRest cfg fuel original_size format packetBuffer part packet_pos : EncoderCall H B Unit) = (do
      _flushInflight
      flushIfFull cfg
      release packetBuffer) := by
  unfold loopRest partialLoop
  rw [if_neg hpos, pure_bind]

theorem loopRest_succ (hpos : packet_pos < packetBuffer.dataSize) :
    (loopRest cfg (fuel + 1) original_size format packetBuffer part packet_pos : EncoderCall H B Unit) = (do
      let part_size ← layPart cfg original_size format packetBuffer part packet_pos
      flushIfExact cfg
      loopRest cfg fuel original_size format packetBuffer (part + 1) ((packet_pos + part_size) % 65536)) := by
  conv => lhs; unfold loopRest partialLoop
  rw [if_pos hpos]
  simp only [addPart_eq_layPart, bind_assoc, pure_bind, loopRest]

/-- With no fuel there is no turn of the loop. -/
theorem exists_loopRest_iff (hpos : packet_pos < packetBuffer.dataSize) :
    (∃ fuel, (loopRest cfg fuel original_size format packetBuffer part packet_pos).run e = .ok () e2) ↔
      ∃ fuel, (do
        let part_size ← layPart cfg original_size format packetBuffer part packet_pos
        flushIfExact cfg
        loopRest cfg fuel original_size format packetBuffer (part + 1)
          ((packet_pos + part_size) % 65536) : EncoderCall H B Unit).run e = .ok () e2 := by
  constructor
  · rintro ⟨fuel, h⟩
    cases fuel with
    | zero =>
      unfold loopRest partialLoop at h
      rw [if_pos hpos] at h
      cases h
    | succ fuel => exact ⟨fuel, loopRest_succ hpos ▸ h⟩
  · rintro ⟨fuel, h⟩
    exact ⟨fuel + 1, loopRest_succ hpos ▸ h⟩

/-- The loop. -/
theorem finishes_partTurn_iff
    (h : (partTurn cfg original_size format packetBuffer fuel part packet_pos).run e = .ok wait e1) :
    Finishes cfg wait e1 e2 ↔
      ∃ fuel, (loopRest cfg fuel original_size format packetBuffer part packet_pos).run e = .ok () e2 := by
  induction fuel generalizing part packet_pos e with
  | zero =>
    unfold partTurn at h
    split at h
    case isTrue => cases h
    case isFalse hpos =>
      obtain ⟨_, ea, hinflight, h⟩ := Call.run_bind_eq_ok.mp h
      simp only [loopRest_of_done hpos, Call.run_bind_of_ok hinflight, exists_const]
      exact finishes_fullTurn_iff h
  | succ fuel ih =>
    unfold partTurn at h
    split at h
    case isFalse hpos =>
      obtain ⟨_, ea, hinflight, h⟩ := Call.run_bind_eq_ok.mp h
      simp only [loopRest_of_done hpos, Call.run_bind_of_ok hinflight, exists_const]
      exact finishes_fullTurn_iff h
    case isTrue hpos =>
      obtain ⟨part_size, ea, hlay, h⟩ := Call.run_bind_eq_ok.mp h
      obtain ⟨size, eb, hsize, h⟩ := Call.run_bind_eq_ok.mp h
      rw [exists_loopRest_iff hpos]
      simp only [Call.run_bind_of_ok hlay, flushIfExact, bind_assoc, Call.run_bind_of_ok hsize]
      split at h
      case isTrue hexact =>
        obtain ⟨waits, ec, hflush, h⟩ := Call.run_bind_eq_ok.mp h
        simp only [if_pos hexact, _flush_eq, bind_assoc, Call.run_bind_of_ok hflush]
        cases waits with
        | true =>
          obtain ⟨rfl, rfl⟩ := EStateM.Result.ok.inj h
          exact Iff.rfl
        | false => exact ih h
      case isFalse hexact =>
        simp only [if_neg hexact, pure_bind]
        exact ih h

end Loop

/-- The second half of `encode`. -/
theorem finishes_addTurn_iff {original_size : Nat} {format : PacketHeaderOptionFormatType}
    (h : (addTurn cfg fuel original_size format packetBuffer).run e = .ok wait e1) :
    Finishes cfg wait e1 e2 ↔ ∃ fuel, (do
      addPacket cfg fuel original_size format packetBuffer
      flushIfFull cfg
      release packetBuffer : EncoderCall H B Unit).run e = .ok () e2 := by
  obtain ⟨max, ea, hmax, h⟩ := Call.run_bind_eq_ok.mp h
  simp only [addPacket, bind_assoc, Call.run_bind_of_ok hmax]
  split at h
  case isTrue hlarge =>
    simp only [if_pos hlarge, bind_assoc]
    exact finishes_partTurn_iff h
  case isFalse hsmall =>
    obtain ⟨_, eb, hadd, h⟩ := Call.run_bind_eq_ok.mp h
    simp only [if_neg hsmall, Call.run_bind_of_ok hadd, exists_const]
    exact finishes_fullTurn_iff h

/-- What is left behind the first turn, and the call. -/
theorem finishes_startTurn_iff (h : (startTurn cfg fuel op).run e = .ok wait e1) :
    Finishes cfg wait e1 e2 ↔ Calls cfg e op e2 := by
  cases op with
  | encode raw =>
    by_cases hlarge : raw.dataSize % 65536 > cfg.l2mtu
    · rw [startTurn, if_pos hlarge] at h
      obtain ⟨_, ea, hpush, hdone⟩ := Call.run_bind_eq_ok.mp h
      obtain ⟨rfl, rfl⟩ := EStateM.Result.ok.inj hdone
      simp only [Calls, step, encode, if_pos hlarge, exists_const]
      exact finishes_none_iff ((Call.run_bind_of_ok hpush).trans rfl)
    · rw [startTurn, if_neg hlarge] at h
      obtain ⟨_, ea, hmodify, h⟩ := Call.run_bind_eq_ok.mp h
      obtain ⟨⟨buf, format⟩, eb, hcompress, h⟩ := Call.run_bind_eq_ok.mp h
      simp only [Calls, step, encode, if_neg hlarge, Call.run_bind_of_ok hmodify, Call.run_bind_of_ok hcompress]
      exact finishes_addTurn_iff h
  | flush =>
    obtain ⟨waits, ea, hflush, h⟩ := Call.run_bind_eq_ok.mp h
    simp only [Calls, step, flush, _flush_eq, bind_assoc, Call.run_bind_of_ok hflush]
    cases waits with
    | true =>
      obtain ⟨rfl, rfl⟩ := EStateM.Result.ok.inj h
      exact Iff.rfl
    | false =>
      obtain ⟨_, eb, hinflight, hdone⟩ := Call.run_bind_eq_ok.mp h
      obtain ⟨rfl, rfl⟩ := EStateM.Result.ok.inj hdone
      simp only [exists_const]
      exact finishes_none_iff hinflight

/-- What is left behind a wait. -/
theorem finishes_resume_iff {w : EncoderWait B} (h : (resume cfg fuel w).run e = .ok wait e1) :
    Finishes cfg wait e1 e2 ↔ Finishes cfg (some w) e e2 := by
  obtain ⟨_, ea, hget, h⟩ := Call.run_bind_eq_ok.mp h
  cases w with
  | flush =>
    obtain ⟨_, eb, hinflight, hdone⟩ := Call.run_bind_eq_ok.mp h
    obtain ⟨rfl, rfl⟩ := EStateM.Result.ok.inj hdone
    conv_rhs => simp only [Finishes, rest, Call.run_bind_of_ok hget, exists_const]
    exact finishes_none_iff hinflight
  | part original_size format packetBuffer part packet_pos =>
    conv_rhs => simp only [Finishes, rest, Call.run_bind_of_ok hget]
    exact finishes_partTurn_iff h
  | full packetBuffer =>
    obtain ⟨_, eb, hinflight, h⟩ := Call.run_bind_eq_ok.mp h
    obtain ⟨_, ec, hrelease, hdone⟩ := Call.run_bind_eq_ok.mp h
    obtain ⟨rfl, rfl⟩ := EStateM.Result.ok.inj hdone
    conv_rhs => simp only [Finishes, rest, Call.run_bind_of_ok hget, exists_const]
    exact finishes_none_iff ((Call.run_bind_of_ok hinflight).trans hrelease)

/-! ## Whatever is in the pool -/

/-- The encoder, with these buffers in the available pool. -/
abbrev withPool (e : PacketEncoder H B) (pool : List (PacketBuffer B)) : PacketEncoder H B :=
  { e with available_buffer_pool := ⟨pool⟩ }

/-- Two encoders that differ only in what was in the available pool at some time before. -/
def SameBut (p q : List (PacketBuffer B)) (e t : PacketEncoder H B) : Prop :=
  ∃ pushed, e.available_buffer_pool.pool = p ++ pushed ∧ t = e.withPool (q ++ pushed)

section Agree
variable {p q : List (PacketBuffer B)} {t : PacketEncoder H B}

/-- They cannot be told apart by the call. -/
abbrev AgreeBut {α : Type} (p q : List (PacketBuffer B)) (e t : PacketEncoder H B) (x : EncoderCall H B α) : Prop :=
  Call.Agree e t x x (fun _ => SameBut p q) fun _ _ => True

theorem bind_deref_agree {α β : Type} {o : Option α} {f g : α → EncoderCall H B β}
    {R : β → PacketEncoder H B → PacketEncoder H B → Prop}
    (some : ∀ a, o = some a → Call.Agree e t (f a) (g a) R fun _ _ => True) :
    Call.Agree e t (deref o >>= f) (deref o >>= g) R fun _ _ => True := by
  cases o with
  | some a => exact .bind_returns (deref_some a e) (deref_some a t) (some a rfl)
  | none => exact ⟨rfl, trivial⟩

theorem txDataSize_agree (h : SameBut p q e t) : AgreeBut p q e t txDataSize := by
  obtain ⟨pushed, hp, rfl⟩ := h
  exact .bind_get (bind_deref_agree fun tx _ => .returns rfl rfl ⟨pushed, hp, rfl⟩)

theorem _getMaxPayloadSize_agree (size : Nat) (h : SameBut p q e t) :
    AgreeBut p q e t (_getMaxPayloadSize cfg size) := by
  obtain ⟨pushed, hp, rfl⟩ := h
  refine .bind_get (bind_deref_agree fun tx _ => ?_)
  exact .ite (fun _ => .returns rfl rfl ⟨pushed, hp, rfl⟩) fun _ => .returns rfl rfl ⟨pushed, hp, rfl⟩

theorem _flushTx_agree (h : SameBut p q e t) : AgreeBut p q e t (_flushTx cfg) := by
  obtain ⟨pushed, hp, rfl⟩ := h
  refine .bind_get (bind_deref_agree fun tx _ => .ite (fun _ => .returns rfl rfl ⟨pushed, hp, rfl⟩) fun _ => ?_)
  refine .bind_ofExcept (fun tx' _ => .bind_ofExcept (fun pool _ => ?_) trivial) trivial
  exact .bind_returns rfl rfl (.returns rfl rfl ⟨pushed, hp, rfl⟩)

theorem _flushInflight_agree (h : SameBut p q e t) : AgreeBut p q e t _flushInflight := by
  obtain ⟨pushed, hp, rfl⟩ := h
  refine .bind_get (.ite (fun _ => .returns rfl rfl ⟨pushed, hp, rfl⟩) fun _ => ?_)
  rw [BufferPool.pushBatch_packetBuffer, BufferPool.pushBatch_packetBuffer]
  refine .returns rfl rfl ⟨pushed ++ e.inflight_buffers, ?_, ?_⟩
  · rw [hp, List.append_assoc]
  · rw [List.append_assoc]

theorem addOption_agree (option : PacketHeaderOption) (payload : List UInt8) (h : SameBut p q e t) :
    AgreeBut p q e t (addOption option payload) := by
  obtain ⟨pushed, hp, rfl⟩ := h
  refine .bind_get (bind_deref_agree fun tx _ => ?_)
  refine .bind_ofExcept (fun tx1 _ => .bind_ofExcept (fun tx2 _ => .bind_ofExcept (fun tx3 _ => ?_) trivial)
    trivial) trivial
  exact .returns rfl rfl ⟨pushed, hp, rfl⟩

theorem setOptionType_agree (pos : Nat) (type : PacketHeaderOptionType) (h : SameBut p q e t) :
    AgreeBut p q e t (setOptionType pos type) := by
  obtain ⟨pushed, hp, rfl⟩ := h
  refine .bind_get (bind_deref_agree fun tx _ => .bind_ofExcept (fun tx1 _ => ?_) trivial)
  exact .returns rfl rfl ⟨pushed, hp, rfl⟩

theorem layPart_agree (original_size : Nat) (format : PacketHeaderOptionFormatType) (part : UInt8)
    (packet_pos : Nat) (h : SameBut p q e t) :
    AgreeBut p q e t (layPart cfg original_size format packetBuffer part packet_pos) := by
  refine (_getMaxPayloadSize_agree _ h).bind fun size e1 t1 h1 => ?_
  refine Call.Agree.bind (Q := fun _ => SameBut p q) ?_ fun _ e2 t2 h2 => .returns rfl rfl h2
  refine (txDataSize_agree h1).bind fun _ e2 t2 h2 => (addOption_agree _ _ h2).bind fun _ e3 t3 h3 => ?_
  exact .ite (fun _ => setOptionType_agree _ _ h3) fun _ => .returns rfl rfl h3

theorem pushAvailable_agree (h : SameBut p q e t) : AgreeBut p q e t (pushAvailable packetBuffer) := by
  obtain ⟨pushed, hp, rfl⟩ := h
  refine .bind_get ?_
  rw [BufferPool.push_packetBuffer, BufferPool.push_packetBuffer]
  refine .returns rfl rfl ⟨pushed ++ [packetBuffer], ?_, ?_⟩
  · rw [hp, List.append_assoc]
  · rw [List.append_assoc]

theorem release_agree (h : SameBut p q e t) : AgreeBut p q e t (release packetBuffer) := by
  have hpush : AgreeBut p q e t (pushAvailable packetBuffer) := pushAvailable_agree h
  obtain ⟨pushed, hp, rfl⟩ := h
  exact .bind_get (.ite (fun _ => .returns rfl rfl ⟨pushed, hp, rfl⟩) fun _ => hpush)

theorem compressPacket_agree (raw : PacketBuffer B) (original_size : Nat) (h : SameBut p q e t) :
    AgreeBut p q e t (compressPacket raw original_size) := by
  obtain ⟨pushed, hp, rfl⟩ := h
  refine .bind_get (.ite (fun _ => .returns rfl rfl ⟨pushed, hp, rfl⟩) fun _ => ?_)
  refine bind_deref_agree fun stream _ => bind_deref_agree fun comp _ => ?_
  refine .bind_ofExcept (fun comp' _ => .bind_returns rfl rfl (.ite (fun _ => ?_) fun _ => ?_)) trivial
  · refine .bind_ofExcept (fun buf _ => ?_) trivial
    exact .bind_returns rfl rfl (.bind_returns rfl rfl (.returns rfl rfl ⟨pushed, hp, rfl⟩))
  · exact .returns rfl rfl ⟨pushed, hp, rfl⟩

theorem fullTurn_agree (h : SameBut p q e t) : AgreeBut p q e t (fullTurn cfg packetBuffer) := by
  have hrelease : ∀ {e t : PacketEncoder H B}, SameBut p q e t →
      AgreeBut p q e t (do release packetBuffer; return (none : Option (EncoderWait B))) :=
    fun h => (release_agree h).bind fun _ _ _ h' => .returns rfl rfl h'
  refine (_getMaxPayloadSize_agree _ h).bind fun size e1 t1 h1 => .ite (fun _ => ?_) fun _ => hrelease h1
  refine (_flushTx_agree h1).bind fun waits e2 t2 h2 => .ite (fun _ => .returns rfl rfl h2) fun _ => ?_
  exact (_flushInflight_agree h2).bind fun _ e3 t3 h3 => hrelease h3

theorem partTurn_agree (original_size : Nat) (format : PacketHeaderOptionFormatType) (part : UInt8)
    (packet_pos : Nat) (h : SameBut p q e t) :
    AgreeBut p q e t (partTurn cfg original_size format packetBuffer fuel part packet_pos) := by
  have hdone : AgreeBut p q e t (do _flushInflight; fullTurn cfg packetBuffer) :=
    (_flushInflight_agree h).bind fun _ e1 t1 h1 => fullTurn_agree h1
  induction fuel generalizing part packet_pos e t with
  | zero =>
    unfold partTurn
    exact .ite (fun _ => ⟨rfl, trivial⟩) fun _ => hdone
  | succ fuel ih =>
    have hnext : ∀ {e t : PacketEncoder H B} (part : UInt8) (packet_pos : Nat), SameBut p q e t →
        AgreeBut p q e t (partTurn cfg original_size format packetBuffer fuel part packet_pos) :=
      fun part packet_pos h => ih part packet_pos h
        ((_flushInflight_agree h).bind fun _ e1 t1 h1 => fullTurn_agree h1)
    unfold partTurn
    refine .ite (fun _ => ?_) fun _ => hdone
    refine (layPart_agree original_size format part packet_pos h).bind fun part_size e1 t1 h1 => ?_
    refine (txDataSize_agree h1).bind fun size e2 t2 h2 => .ite (fun _ => ?_) fun _ => hnext _ _ h2
    refine (_flushTx_agree h2).bind fun waits e3 t3 h3 => ?_
    exact .ite (fun _ => .returns rfl rfl h3) fun _ => hnext _ _ h3

theorem startTurn_agree (op : Op B) (h : SameBut p q e t) : AgreeBut p q e t (startTurn cfg fuel op) := by
  cases op with
  | encode raw =>
    refine .ite (fun _ => ?_) fun _ => ?_
    · exact (pushAvailable_agree h).bind fun _ _ _ h1 => .returns rfl rfl h1
    refine Call.Agree.bind (Q := fun _ => SameBut p q) ?_ fun _ e1 t1 h1 => ?_
    · obtain ⟨pushed, hp, rfl⟩ := h
      exact .returns rfl rfl ⟨pushed, hp, rfl⟩
    refine (compressPacket_agree raw _ h1).bind fun r e2 t2 h2 => ?_
    refine (_getMaxPayloadSize_agree _ h2).bind fun max e3 t3 h3 => ?_
    refine .ite (fun _ => partTurn_agree _ _ _ _ h3) fun _ => ?_
    exact (addOption_agree _ _ h3).bind fun _ e4 t4 h4 => fullTurn_agree h4
  | flush =>
    refine (_flushTx_agree h).bind fun waits e1 t1 h1 => .ite (fun _ => .returns rfl rfl h1) fun _ => ?_
    exact (_flushInflight_agree h1).bind fun _ _ _ h2 => .returns rfl rfl h2

theorem nextTurn_agree (w : EncoderWait B) (h : SameBut p q e t) : AgreeBut p q e t (nextTurn cfg fuel w) := by
  cases w with
  | flush => exact (_flushInflight_agree h).bind fun _ _ _ h1 => .returns rfl rfl h1
  | part => exact partTurn_agree _ _ _ _ h
  | full =>
    refine (_flushInflight_agree h).bind fun _ e1 t1 h1 => ?_
    exact (release_agree h1).bind fun _ _ _ h2 => .returns rfl rfl h2

/-- What `AgreeBut` says of a call that returns. -/
theorem run_withPool {α : Type} {x : EncoderCall H B α} {a : α}
    (hx : ∀ p q e t, SameBut p q e t → AgreeBut p q e t x) (hrun : x.run e = .ok a e1) :
    ∃ pushed, e1.available_buffer_pool.pool = e.available_buffer_pool.pool ++ pushed ∧
      ∀ pool, x.run (e.withPool pool) = .ok a (e1.withPool (pool ++ pushed)) := by
  have hsame : ∀ pool, SameBut e.available_buffer_pool.pool pool e (e.withPool pool) := fun pool =>
    ⟨[], (List.append_nil _).symm, by rw [List.append_nil]⟩
  have hother : ∀ pool, ∃ pushed, e1.available_buffer_pool.pool = e.available_buffer_pool.pool ++ pushed ∧
      x.run (e.withPool pool) = .ok a (e1.withPool (pool ++ pushed)) := by
    intro pool
    have h := hx _ _ _ _ (hsame pool)
    unfold AgreeBut Call.Agree at h
    rw [hrun] at h
    cases hrun' : x.run (e.withPool pool) with
    | ok b t =>
      rw [hrun'] at h
      obtain ⟨rfl, pushed, hp, rfl⟩ := h
      exact ⟨pushed, hp, rfl⟩
    | error =>
      rw [hrun'] at h
      exact h.elim
  -- what is pushed does not depend on the pool
  obtain ⟨pushed, hp, -⟩ := hother []
  refine ⟨pushed, hp, fun pool => ?_⟩
  obtain ⟨pushed', hp', hrun'⟩ := hother pool
  rw [hp] at hp'
  rw [hrun', List.append_cancel_left hp']

/-- `_getTxBuffer` takes the first buffer, whatever comes behind it. -/
theorem _getTxBuffer_withPool (hrun : (_getTxBuffer : EncoderCall H B Unit).run e = .ok () e1) :
    ∃ b, e.available_buffer_pool.pool = b :: e1.available_buffer_pool.pool ∧
      ∀ pool, _getTxBuffer.run (e.withPool (b :: pool)) = .ok () (e1.withPool pool) := by
  obtain ⟨_, ea, hget, hrun⟩ := Call.run_bind_eq_ok.mp hrun
  obtain ⟨rfl, rfl⟩ := EStateM.Result.ok.inj hget
  cases hpool : e.available_buffer_pool.pool with
  | nil =>
    have hpop : e.available_buffer_pool.pop_wait = .error .blocked := by
      rw [BufferPool.pop_wait, hpool]
    rw [hpop] at hrun
    cases hrun
  | cons b rest =>
    have hpop : e.available_buffer_pool.pop_wait = .ok (b, ⟨rest⟩) := by
      rw [BufferPool.pop_wait, hpool]
    rw [hpop] at hrun
    obtain ⟨_, ea, h1, hrun⟩ := Call.run_bind_eq_ok.mp hrun
    obtain ⟨rfl, rfl⟩ := EStateM.Result.ok.inj h1
    obtain ⟨tx, eb, h2, hset⟩ := Call.run_bind_eq_ok.mp hrun
    cases hclear : (b.clear.setDataSize PacketHeader.size : Except Stop (PacketBuffer B)) with
    | error =>
      rw [hclear] at h2
      cases h2
    | ok tx' =>
    rw [hclear] at h2
    obtain ⟨rfl, rfl⟩ := EStateM.Result.ok.inj h2
    obtain ⟨-, rfl⟩ := EStateM.Result.ok.inj hset
    refine ⟨b, rfl, fun pool => ?_⟩
    simp only [_getTxBuffer, EStateM.run_bind, EStateM.run_get, BufferPool.pop_wait, Call.run_ofExcept_ok,
      hclear, EStateM.run_set]

/-- **Between two turns** what is left of the call, on any pool that begins with the buffers taken so
far, is the whole call. -/
theorem finishes_iff_of_inCall {e0 : PacketEncoder H B} (h : InCall cfg e0 op wait e) :
    ∃ taken pushed, ∀ pool e2, Finishes cfg wait (e.withPool (pool ++ pushed)) e2 ↔
      Calls cfg (e0.withPool (taken ++ pool)) op e2 := by
  induction h with
  | start hrun =>
    obtain ⟨pushed, -, hpools⟩ := run_withPool (fun p q e t => startTurn_agree op) hrun
    exact ⟨[], pushed, fun pool e2 => finishes_startTurn_iff (hpools pool)⟩
  | others pool _ ih => exact ih
  | resume _ hrun ih =>
    obtain ⟨taken, pushed, hih⟩ := ih
    obtain ⟨_, ea, hget, hnext⟩ := Call.run_bind_eq_ok.mp hrun
    obtain ⟨b, -, hgets⟩ := _getTxBuffer_withPool hget
    obtain ⟨pushed', -, hpools⟩ := run_withPool (fun p q e t => nextTurn_agree _) hnext
    refine ⟨taken ++ [b], pushed ++ pushed', fun pool e2 => ?_⟩
    have hresume : (resume cfg _ _).run _ = _ := (Call.run_bind_of_ok (hgets (pool ++ pushed))).trans (hpools _)
    rw [← List.append_assoc, finishes_resume_iff hresume, List.append_assoc]
    exact hih (b :: pool) e2

/-- **A call that waits does what it does in one go**, with the buffers it took at hand: other threads
only decide which buffers these are, and what becomes of those it gives back. -/
theorem calls_of_inCall {e0 : PacketEncoder H B} (h : InCall cfg e0 op none e) :
    ∃ taken pushed, Calls cfg (e0.withPool taken) op (e.withPool pushed) := by
  obtain ⟨taken, pushed, hfinishes⟩ := finishes_iff_of_inCall h
  have hcall := (hfinishes [] _).mp ⟨0, rfl⟩
  rw [List.append_nil] at hcall
  exact ⟨taken, _, hcall⟩

end Agree

end PacketEncoder
end SuperEthd
