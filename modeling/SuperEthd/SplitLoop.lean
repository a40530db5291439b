import SuperEthd.EncoderRuns
import SuperEthd.Ownership

/-! # The loop over the parts of a packet

Nothing but the flush of a nearly full datagram keeps room for a part in `tx_buffer`, and nothing but
that room keeps the loop from writing empty parts for ever.  The sizes are here any with which a
datagram has room for one byte of a part, and nothing is assumed of the compressor. -/
namespace SuperEthd
open PacketHeaderOptionType PacketHeaderOptionFormatType

namespace PacketEncoder
variable {H : Type} {B : Nat} (cfg : EncoderConfig)

/-- A datagram has room for one byte of a part and fits into a buffer, and the size of a buffer into a
`uint16_t`. -/
structure Splittable (B : Nat) : Prop where
  l4mtu_ge : 17 ≤ cfg.l4mtu
  l4mtu_le : cfg.l4mtu ≤ B
  B_le : B ≤ 65535

/-- **A turn of the encoder**: a call returns, or throws `std::out_of_range`, or the other threads use
the pools they share with it.  A call that waited for a buffer is one that found it in the pool. -/
inductive Turn : PacketEncoder H B → Option (Op B) → PacketEncoder H B → Prop
  | returns {e e' : PacketEncoder H B} {op : Op B} : Calls cfg e op e' → Turn e (some op) e'
  | throws {e e' : PacketEncoder H B} {op : Op B} (fuel : Nat) :
      (step cfg fuel op).run e = .error .outOfRange e' → Turn e (some op) e'
  | others {e : PacketEncoder H B} (tx_buffer_pool available_buffer_pool : BufferPool (PacketBuffer B) B) :
      Turn e none { e with
        tx_buffer_pool := tx_buffer_pool
        available_buffer_pool := available_buffer_pool }

/-- **Between two calls** `tx_buffer` holds nothing but the space of the header, or options of which the
first is counted, with room for 88 bytes behind one more. -/
def BetweenCalls (e : PacketEncoder H B) : Prop :=
  ∃ tx, e.tx_buffer = some tx ∧
    (tx.dataSize = PacketHeader.size ∧ e.packet_count = 0 ∧ e.opt_len = 0 ∨
      PacketHeader.size < tx.dataSize ∧ 0 < e.packet_count ∧ e.opt_len = 1 ∧
        tx.dataSize + PacketHeaderOption.size + 88 ≤ cfg.l4mtu)

/-- `tx_buffer` is no larger than a datagram. -/
def Within (e : PacketEncoder H B) : Prop := ∃ tx, e.tx_buffer = some tx ∧ tx.dataSize ≤ cfg.l4mtu

section Loop
variable (original_size : Nat) (format : PacketHeaderOptionFormatType) (packetBuffer : PacketBuffer B)

/-- **The loop comes to an iteration**: the numbers of the parts so far, the number and the position of
the next one, and the state. -/
inductive ComesTo (e : PacketEncoder H B) : List UInt8 → UInt8 → Nat → PacketEncoder H B → Prop
  | first : ComesTo e [] 1 0 e
  | next {parts part packet_pos e1 part_size e2} : ComesTo e parts part packet_pos e1 →
      packet_pos < packetBuffer.dataSize →
      (addPart cfg original_size format packetBuffer part packet_pos).run e1 = .ok part_size e2 →
      ComesTo e (parts ++ [part]) (part + 1) ((packet_pos + part_size) % 65536) e2

/-- **The loop makes progress** from the state given. -/
structure Progresses (e : PacketEncoder H B) : Prop where
  /-- every iteration copies a byte, and the position stays in the packet -/
  copies : ∀ parts part packet_pos e1 part_size e2,
    ComesTo cfg original_size format packetBuffer e parts part packet_pos e1 →
    packet_pos < packetBuffer.dataSize →
    (addPart cfg original_size format packetBuffer part packet_pos).run e1 = .ok part_size e2 →
    0 < part_size ∧ packet_pos + part_size ≤ packetBuffer.dataSize ∧ packet_pos + part_size < 65536
  within : ∀ parts part packet_pos e1,
    ComesTo cfg original_size format packetBuffer e parts part packet_pos e1 → Within cfg e1
  /-- so every iteration lays a byte at least, and the datagram is not too large before its flush -/
  lays : ∀ parts part packet_pos e1,
    ComesTo cfg original_size format packetBuffer e parts part packet_pos e1 →
    packet_pos < packetBuffer.dataSize → ∃ part_size e2,
      (layPart cfg original_size format packetBuffer part packet_pos).run e1 = .ok part_size e2 ∧
      0 < part_size ∧ packet_pos + part_size ≤ packetBuffer.dataSize ∧ Within cfg e2
  /-- the loop ends, or waits since the pool had fewer buffers than the packet has bytes -/
  ends : ∀ fuel, packetBuffer.dataSize ≤ fuel →
    (∃ e', (partialLoop cfg original_size format packetBuffer fuel 1 0).run e = .ok () e') ∨
    (∃ e', (partialLoop cfg original_size format packetBuffer fuel 1 0).run e = .error .blocked e') ∧
      e.available_buffer_pool.pool.length < packetBuffer.dataSize
  distinct : packetBuffer.dataSize ≤ 254 * (cfg.l4mtu - 16) → ∀ parts part packet_pos e1,
    ComesTo cfg original_size format packetBuffer e parts part packet_pos e1 →
    parts.Nodup ∧ (packet_pos < packetBuffer.dataSize → part ∉ parts)

end Loop

/-- **The next `encode` splits safely**, whatever the packet and whatever the compressor makes of it. -/
structure SplitsSafely (e : PacketEncoder H B) : Prop where
  betweenCalls : BetweenCalls cfg e
  progresses : ∀ raw packetBuffer format e1,
    (compressPacket raw (raw.dataSize % 65536)).run { e with accepted := e.accepted ++ [raw.data] } =
      .ok (packetBuffer, format) e1 →
    Progresses cfg (raw.dataSize % 65536) format packetBuffer e1
  within : ∀ raw packetBuffer format e1 fuel e2,
    (compressPacket raw (raw.dataSize % 65536)).run { e with accepted := e.accepted ++ [raw.data] } =
      .ok (packetBuffer, format) e1 →
    (addPacket cfg fuel (raw.dataSize % 65536) format packetBuffer).run e1 = .ok () e2 → Within cfg e2

variable {cfg} {e e' e1 : PacketEncoder H B} {tx tx' buf raw : PacketBuffer B}
  {original_size packet_pos fuel : Nat} {option_format : PacketHeaderOptionFormatType} {part : UInt8}

/-! ## What is counted -/

/-- `tx_buffer` is `tx`, and it is counted whether there is an option in it. -/
structure Counted (cfg : EncoderConfig) (e : PacketEncoder H B) (tx : PacketBuffer B) : Prop where
  tx_buffer : e.tx_buffer = some tx
  le_l4mtu : tx.dataSize ≤ cfg.l4mtu
  counts : tx.dataSize = PacketHeader.size ∧ e.packet_count = 0 ∧ e.opt_len = 0 ∨
    PacketHeader.size < tx.dataSize ∧ 0 < e.packet_count ∧ e.opt_len = 1

namespace Counted

theorem size_le (h : Counted cfg e tx) : PacketHeader.size ≤ tx.dataSize := by
  rcases h.counts with ⟨h8, -⟩ | ⟨h8, -⟩
  · exact h8.ge
  · exact h8.le

theorem within (h : Counted cfg e tx) : Within cfg e := ⟨tx, h.tx_buffer, h.le_l4mtu⟩

theorem congr (h : Counted cfg e tx) (htx : e'.tx_buffer = e.tx_buffer)
    (hcount : e'.packet_count = e.packet_count) (hopt : e'.opt_len = e.opt_len) : Counted cfg e' tx :=
  ⟨htx.trans h.tx_buffer, h.le_l4mtu, by rw [hcount, hopt]; exact h.counts⟩

/-- The first option is counted in `opt_len`, the others are not. -/
theorem withOption (h : Counted cfg e tx) (hlt : tx.dataSize < tx'.dataSize)
    (hle : tx'.dataSize ≤ cfg.l4mtu) : Counted cfg (e.withOption tx') tx' := by
  refine ⟨rfl, hle, Or.inr ⟨Nat.lt_of_le_of_lt h.size_le hlt, Nat.succ_pos _, ?_⟩⟩
  rcases h.counts with ⟨-, hcount, hopt⟩ | ⟨-, hcount, hopt⟩
  · simp only [PacketEncoder.withOption, hcount, if_true, hopt]
  · simp only [PacketEncoder.withOption, hcount.ne', if_false, hopt]

end Counted

theorem BetweenCalls.counted (hsizes : Splittable cfg B) (h : BetweenCalls cfg e) :
    ∃ tx, Counted cfg e tx ∧ tx.dataSize + PacketHeaderOption.size < cfg.l4mtu := by
  have hmin := hsizes.l4mtu_ge
  have hs8 : PacketHeader.size = 8 := rfl
  have ho8 : PacketHeaderOption.size = 8 := rfl
  obtain ⟨tx, htx, ⟨h8, hcount, hopt⟩ | ⟨h8, hcount, hopt, hroom⟩⟩ := h
  · exact ⟨tx, ⟨htx, by omega, Or.inl ⟨h8, hcount, hopt⟩⟩, by omega⟩
  · exact ⟨tx, ⟨htx, by omega, Or.inr ⟨h8, hcount, hopt⟩⟩, by omega⟩

theorem BetweenCalls.congr (h : BetweenCalls cfg e) (htx : e'.tx_buffer = e.tx_buffer)
    (hcount : e'.packet_count = e.packet_count) (hopt : e'.opt_len = e.opt_len) :
    BetweenCalls cfg e' := by
  unfold BetweenCalls
  rw [htx, hcount, hopt]
  exact h

/-! ## One iteration -/

/-- `_flush` takes a buffer for the next datagram, if there is something in this one. -/
theorem Counted._flush (h : Counted cfg e tx) :
    (e.available_buffer_pool.pool = [] ∧ ∃ e', (_flush cfg).run e = .error .blocked e') ∨
    ∃ e' tx', (_flush cfg).run e = .ok () e' ∧ Counted cfg e' tx' ∧ tx'.dataSize = PacketHeader.size ∧
      e.available_buffer_pool.pool.length ≤ e'.available_buffer_pool.pool.length + 1 := by
  rcases h.counts with ⟨h8, -⟩ | ⟨h8, -⟩
  · exact Or.inr ⟨e, tx, _flush_run_empty h.tx_buffer h8, h, h8, Nat.le_succ _⟩
  rcases _flush_run cfg h.tx_buffer h8 with hb | ⟨sent, tx', h8', -, hrun⟩
  · exact Or.inl hb
  · refine Or.inr ⟨_, tx', hrun, ⟨rfl, ?_, Or.inl ⟨h8', rfl, rfl⟩⟩, h8', ?_⟩
    · rw [h8']
      exact h.size_le.trans h.le_l4mtu
    · rw [List.length_tail]
      omega

variable (original_size option_format part) in
/-- **A part** is laid: a byte of the packet at least, and either the rest or what fills the
datagram. -/
theorem Counted.layPart (hsizes : Splittable cfg B) (h : Counted cfg e tx)
    (hroom : tx.dataSize + PacketHeaderOption.size < cfg.l4mtu) (hpos : packet_pos < buf.dataSize) :
    ∃ part_size tx', (layPart cfg original_size option_format buf part packet_pos).run e =
        .ok part_size (e.withOption tx') ∧ Counted cfg (e.withOption tx') tx' ∧ 0 < part_size ∧
      packet_pos + part_size ≤ buf.dataSize ∧
      tx'.dataSize = tx.dataSize + PacketHeaderOption.size + part_size ∧
      (packet_pos + part_size < buf.dataSize → tx'.dataSize = cfg.l4mtu) := by
  obtain ⟨part_size, tx', hrun, h0, hfits, hdata, hle, hfull⟩ := layPart_run original_size option_format
    part hsizes.l4mtu_le hsizes.B_le h.tx_buffer h.size_le hroom hpos
  have hlen : tx'.dataSize = tx.dataSize + PacketHeaderOption.size + part_size := by
    rw [← tx'.data_length, hdata, List.length_append, List.length_append, tx.data_length,
      PacketHeaderOption.bytes_length, buf.slice_length hfits]
  refine ⟨part_size, tx', hrun, h.withOption (by omega) (by omega), h0, hfits, hlen, fun hlt => ?_⟩
  rw [hlen, hfull hlt]

variable (original_size option_format part) in
/-- **One iteration**: if there is a rest, the datagram was full and the next one is fresh. -/
theorem Counted.addPart (hsizes : Splittable cfg B) (h : Counted cfg e tx)
    (hroom : tx.dataSize + PacketHeaderOption.size < cfg.l4mtu) (hpos : packet_pos < buf.dataSize) :
    (e.available_buffer_pool.pool = [] ∧
      ∃ e', (addPart cfg original_size option_format buf part packet_pos).run e =
        .error .blocked e') ∨
    ∃ part_size e' tx', (addPart cfg original_size option_format buf part packet_pos).run e =
        .ok part_size e' ∧ Counted cfg e' tx' ∧ 0 < part_size ∧
      packet_pos + part_size ≤ buf.dataSize ∧
      e.available_buffer_pool.pool.length ≤ e'.available_buffer_pool.pool.length + 1 ∧
      (packet_pos + part_size < buf.dataSize → tx'.dataSize = PacketHeader.size ∧
        tx.dataSize + PacketHeaderOption.size + part_size = cfg.l4mtu) := by
  obtain ⟨part_size, tx1, hrun, h1, h0, hfits, hlen, hfull⟩ :=
    h.layPart original_size option_format part hsizes hroom hpos
  rw [addPart_eq_layPart, EStateM.run_bind, hrun]
  by_cases hexact : tx1.dataSize = cfg.l4mtu
  · rcases h1._flush with ⟨hpool, e', hb⟩ | ⟨e', tx', hflush, h', h8, hcount⟩
    · refine Or.inl ⟨hpool, e', ?_⟩
      simp only [flushIfExact, EStateM.run_bind, txDataSize_run h1.tx_buffer, if_pos hexact, hb]
    · refine Or.inr ⟨part_size, e', tx', ?_, h', h0, hfits, hcount, fun _ => ⟨h8, by omega⟩⟩
      simp only [flushIfExact, EStateM.run_bind, txDataSize_run h1.tx_buffer, if_pos hexact, hflush,
        EStateM.run_pure]
  · refine Or.inr ⟨part_size, e.withOption tx1, tx1, ?_, h1, h0, hfits, Nat.le_succ _, fun hlt => ?_⟩
    · simp only [flushIfExact, EStateM.run_bind, txDataSize_run h1.tx_buffer, if_neg hexact,
        EStateM.run_pure]
    · exact absurd (hfull hlt) hexact

/-! ## The loop -/

variable (buf original_size packet_pos option_format part) in
/-- **The loop over the parts** ends if the iterations suffice, or waits for a buffer. -/
theorem Counted.partialLoop (hsizes : Splittable cfg B) (fuel : Nat) (h : Counted cfg e tx)
    (hroom : packet_pos < buf.dataSize → tx.dataSize + PacketHeaderOption.size < cfg.l4mtu) :
    (e.available_buffer_pool.pool.length < buf.dataSize - packet_pos ∧
      ∃ e', (partialLoop cfg original_size option_format buf fuel part packet_pos).run e =
        .error .blocked e') ∨
    (fuel < buf.dataSize - packet_pos ∧
      ∃ e', (partialLoop cfg original_size option_format buf fuel part packet_pos).run e =
        .error .running e') ∨
    ∃ e' tx', (partialLoop cfg original_size option_format buf fuel part packet_pos).run e =
      .ok () e' ∧ Counted cfg e' tx' := by
  have hmin := hsizes.l4mtu_ge
  have hB := hsizes.B_le
  have hle := buf.dataSize_le
  have hs8 : PacketHeader.size = 8 := rfl
  have ho8 : PacketHeaderOption.size = 8 := rfl
  by_cases hpos : packet_pos < buf.dataSize
  swap
  · refine Or.inr (Or.inr ⟨e, tx, ?_, h⟩)
    rw [partialLoop_done hpos, EStateM.run_pure]
  -- each iteration copies a byte, and takes a buffer at most
  induction fuel generalizing part packet_pos e tx with
  | zero =>
    refine Or.inr (Or.inl ⟨by omega, e, ?_⟩)
    simp only [PacketEncoder.partialLoop, if_pos hpos, Call.run_throw]
  | succ fuel ih =>
    simp only [PacketEncoder.partialLoop, if_pos hpos, EStateM.run_bind]
    rcases h.addPart original_size option_format part hsizes (hroom hpos) hpos with
      ⟨hpool, e', hb⟩ | ⟨part_size, e1, tx1, hrun, h1, h0, hfits, hcount, hrest⟩
    · refine Or.inl ⟨?_, e', by simp only [hb]⟩
      rw [hpool, List.length_nil]
      omega
    simp only [hrun]
    rw [Nat.mod_eq_of_lt (by omega)]
    by_cases hlt : packet_pos + part_size < buf.dataSize
    · obtain ⟨h8, -⟩ := hrest hlt
      rcases ih (packet_pos + part_size) (part + 1) h1 (fun _ => by omega) hlt with
        ⟨hpool, hb⟩ | ⟨hfuel, hr⟩ | hdone
      · exact Or.inl ⟨by omega, hb⟩
      · exact Or.inr (Or.inl ⟨by omega, hr⟩)
      · exact Or.inr (Or.inr hdone)
    · refine Or.inr (Or.inr ⟨e1, tx1, ?_, h1⟩)
      rw [partialLoop_done hlt, EStateM.run_pure]

/-- After `k` parts: all but the first and the last of them have filled a datagram. -/
structure LoopAt (cfg : EncoderConfig) (buf : PacketBuffer B) (k : Nat) (tx : PacketBuffer B)
    (packet_pos : Nat) (e : PacketEncoder H B) : Prop where
  counted : Counted cfg e tx
  pos_le : packet_pos ≤ buf.dataSize
  room : packet_pos < buf.dataSize → tx.dataSize + PacketHeaderOption.size < cfg.l4mtu
  full : 0 < k → packet_pos < buf.dataSize →
    tx.dataSize = PacketHeader.size ∧ (k - 1) * (cfg.l4mtu - 16) < packet_pos
  parts : 0 < k → (k - 2) * (cfg.l4mtu - 16) < buf.dataSize

/-- **The next iteration.** -/
theorem LoopAt.next {k part_size : Nat} (hsizes : Splittable cfg B)
    (h : LoopAt cfg buf k tx packet_pos e) (hpos : packet_pos < buf.dataSize)
    (hrun : (addPart cfg original_size option_format buf part packet_pos).run e = .ok part_size e') :
    0 < part_size ∧ packet_pos + part_size ≤ buf.dataSize ∧
      ∃ tx', LoopAt cfg buf (k + 1) tx' (packet_pos + part_size) e' := by
  have hmin := hsizes.l4mtu_ge
  have hs8 : PacketHeader.size = 8 := rfl
  have ho8 : PacketHeaderOption.size = 8 := rfl
  rcases h.counted.addPart original_size option_format part hsizes (h.room hpos) hpos with
    ⟨-, e1, hb⟩ | ⟨n, e1, tx', hok, h1, h0, hfits, -, hrest⟩
  · cases hrun.symm.trans hb
  obtain ⟨rfl, rfl⟩ := EStateM.Result.ok.inj (hrun.symm.trans hok)
  refine ⟨h0, hfits, tx', h1, hfits, fun hlt => ?_, fun _ hlt => ?_, fun _ => ?_⟩
  · obtain ⟨h8, -⟩ := hrest hlt
    omega
  · obtain ⟨h8, hfull⟩ := hrest hlt
    refine ⟨h8, ?_⟩
    cases k with
    | zero => omega
    | succ k =>
      obtain ⟨hfresh, hbytes⟩ := h.full (Nat.succ_pos k) hpos
      rw [Nat.add_sub_cancel] at hbytes ⊢
      rw [Nat.succ_mul]
      omega
  · cases k with
    | zero => omega
    | succ k => exact Nat.lt_trans (h.full (Nat.succ_pos k) hpos).2 hpos

/-- The parts are numbered from 1 on. -/
def partNumbers (k : Nat) : List UInt8 := (List.range k).map fun i => UInt8.ofNat (i + 1)

theorem partNumbers_succ (k : Nat) : partNumbers (k + 1) = partNumbers k ++ [UInt8.ofNat (k + 1)] := by
  rw [partNumbers, List.range_succ, List.map_append, List.map_singleton]
  rfl

theorem nodup_partNumbers {k : Nat} (hk : k ≤ 255) : (partNumbers k).Nodup := by
  refine List.nodup_range.map_on fun i hi j hj heq => ?_
  have hi := List.mem_range.mp hi
  have hj := List.mem_range.mp hj
  have heq := congrArg UInt8.toNat heq
  rw [UInt8.toNat_ofNat', UInt8.toNat_ofNat'] at heq
  omega

/-- **The iterations** the loop comes to, by the number of parts. -/
theorem ComesTo.loopAt {parts : List UInt8} (hsizes : Splittable cfg B) (hstart : Counted cfg e tx)
    (hroom : tx.dataSize + PacketHeaderOption.size < cfg.l4mtu)
    (h : ComesTo cfg original_size option_format buf e parts part packet_pos e1) :
    ∃ k tx', parts = partNumbers k ∧ part = UInt8.ofNat (k + 1) ∧
      LoopAt cfg buf k tx' packet_pos e1 := by
  induction h with
  | first =>
    exact ⟨0, tx, rfl, rfl, hstart, Nat.zero_le _, fun _ => hroom, fun h0 => absurd h0 (Nat.lt_irrefl 0),
      fun h0 => absurd h0 (Nat.lt_irrefl 0)⟩
  | @next parts part packet_pos e1 part_size e2 _ hpos hrun ih =>
    obtain ⟨k, tx1, rfl, rfl, hat⟩ := ih
    obtain ⟨-, hfits, tx', hnext⟩ := hat.next hsizes hpos hrun
    have hle := buf.dataSize_le
    have hB := hsizes.B_le
    rw [Nat.mod_eq_of_lt (by omega)]
    refine ⟨k + 1, tx', (partNumbers_succ k).symm, ?_, hnext⟩
    rw [UInt8.ofNat_add (k + 1) 1]
    rfl

variable (buf original_size option_format) in
/-- **The loop makes progress** wherever there is room for a byte. -/
theorem Counted.progresses (hsizes : Splittable cfg B) (h : Counted cfg e tx)
    (hroom : tx.dataSize + PacketHeaderOption.size < cfg.l4mtu) :
    Progresses cfg original_size option_format buf e := by
  constructor
  · intro parts part packet_pos e1 part_size e2 hcomes hpos hrun
    obtain ⟨k, tx', -, -, hat⟩ := hcomes.loopAt hsizes h hroom
    obtain ⟨h0, hfits, -⟩ := hat.next hsizes hpos hrun
    have hle := buf.dataSize_le
    have hB := hsizes.B_le
    exact ⟨h0, hfits, by omega⟩
  · intro parts part packet_pos e1 hcomes
    obtain ⟨k, tx', -, -, hat⟩ := hcomes.loopAt hsizes h hroom
    exact hat.counted.within
  · intro parts part packet_pos e1 hcomes hpos
    obtain ⟨k, tx1, -, -, hat⟩ := hcomes.loopAt hsizes h hroom
    obtain ⟨part_size, tx', hlaid, h', h0, hfits, -⟩ :=
      hat.counted.layPart original_size option_format part hsizes (hat.room hpos) hpos
    exact ⟨part_size, _, hlaid, h0, hfits, h'.within⟩
  · intro fuel hfuel
    rcases h.partialLoop buf original_size 0 option_format 1 hsizes fuel (fun _ => hroom) with
      ⟨hpool, hb⟩ | ⟨hlt, -⟩ | ⟨e', -, hdone, -⟩
    · exact Or.inr ⟨hb, hpool⟩
    · omega
    · exact Or.inl ⟨e', hdone⟩
  · intro hsize parts part packet_pos e1 hcomes
    obtain ⟨k, tx', rfl, rfl, hat⟩ := hcomes.loopAt hsizes h hroom
    constructor
    · refine nodup_partNumbers ?_
      cases k with
      | zero => exact Nat.zero_le _
      | succ k =>
        have hlt := Nat.lt_of_lt_of_le (hat.parts (Nat.succ_pos k)) hsize
        have hk := Nat.lt_of_mul_lt_mul_right hlt
        omega
    · intro hpos
      have hnodup : (partNumbers (k + 1)).Nodup := by
        refine nodup_partNumbers ?_
        cases k with
        | zero => decide
        | succ k =>
          have hlt := (hat.full (Nat.succ_pos k) hpos).2.trans (Nat.lt_of_lt_of_le hpos hsize)
          have hk := Nat.lt_of_mul_lt_mul_right hlt
          omega
      rw [partNumbers_succ] at hnodup
      exact fun hmem => (List.nodup_append.mp hnodup).2.2 _ hmem _ (List.mem_singleton_self _) rfl

/-! ## The calls -/

variable (buf original_size fuel option_format) in
/-- The packet is added, in parts or whole. -/
theorem addPacket_counted (hsizes : Splittable cfg B) :
    Call.Meets (BetweenCalls (H := H) cfg) (addPacket cfg fuel original_size option_format buf)
      (fun _ e => ∃ tx, Counted cfg e tx) (fun x _ => x = .blocked ∨ x = .running) := by
  intro e h
  obtain ⟨tx, h, hroom⟩ := h.counted hsizes
  have hl := hsizes.l4mtu_le
  have hB := hsizes.B_le
  have ho8 : PacketHeaderOption.size = 8 := rfl
  have hmax := fun n => _getMaxPayloadSize_eq n (show cfg.l4mtu < 65536 by omega) h.tx_buffer h.size_le
  simp only [addPacket, EStateM.run_bind, hmax]
  by_cases hbig : buf.dataSize > cfg.l4mtu - PacketHeaderOption.size - tx.dataSize
  · simp only [if_pos hbig, EStateM.run_bind]
    rcases h.partialLoop buf original_size 0 option_format 1 hsizes fuel (fun _ => hroom) with
      ⟨-, e', hb⟩ | ⟨-, e', hr⟩ | ⟨e1, tx1, hrun, h1⟩
    · simp only [hb]
      exact Or.inl trivial
    · simp only [hr]
      exact Or.inr trivial
    · obtain ⟨pool, hinflight⟩ := _flushInflight_run (e := e1)
      simp only [hrun, hinflight]
      exact ⟨tx1, h1.congr rfl rfl rfl⟩
  · simp only [if_neg hbig]
    obtain ⟨tx', hdata, hrun⟩ := addOption_run
      { type := COMPLETE_PACKET
        packet_size := original_size
        format := option_format
        payload_length := buf.dataSize % 65536
        part := 0
        reserved := 0 } buf.data h.tx_buffer (by rw [buf.data_length]; omega)
    have hlen : tx'.dataSize = tx.dataSize + PacketHeaderOption.size + buf.dataSize := by
      rw [← tx'.data_length, hdata, List.length_append, List.length_append, tx.data_length,
        PacketHeaderOption.bytes_length, buf.data_length]
    simp only [hrun]
    exact ⟨tx', h.withOption (by omega) (by omega)⟩

/-- **`flush`** leaves nothing in `tx_buffer`. -/
theorem flush_between : Call.Meets (fun e : PacketEncoder H B => ∃ tx, Counted cfg e tx) (flush cfg)
    (fun _ => BetweenCalls cfg) (fun x _ => x = .blocked) := by
  rintro e ⟨tx, h⟩
  simp only [flush, EStateM.run_bind]
  rcases h._flush with ⟨-, e', hb⟩ | ⟨e1, tx1, hrun, h1, h8, -⟩
  · simp only [hb]
  · obtain ⟨pool, hinflight⟩ := _flushInflight_run (e := e1)
    simp only [hrun, hinflight]
    rcases h1.counts with ⟨-, hcounts⟩ | ⟨hlt, -⟩
    · exact ⟨tx1, h1.tx_buffer, Or.inl ⟨h8, hcounts⟩⟩
    · omega

/-- **The flush of a nearly full datagram** keeps the room. -/
theorem flushIfFull_between (hsizes : Splittable cfg B) :
    Call.Meets (fun e : PacketEncoder H B => ∃ tx, Counted cfg e tx) (flushIfFull cfg)
      (fun _ => BetweenCalls cfg) (fun x _ => x = .blocked) := by
  rintro e ⟨tx, h⟩
  have hl := hsizes.l4mtu_le
  have hB := hsizes.B_le
  have hs8 : PacketHeader.size = 8 := rfl
  have ho8 : PacketHeaderOption.size = 8 := rfl
  have hmax := fun n => _getMaxPayloadSize_eq n (show cfg.l4mtu < 65536 by omega) h.tx_buffer h.size_le
  simp only [flushIfFull, EStateM.run_bind, hmax]
  by_cases hfull : cfg.l4mtu - PacketHeaderOption.size - tx.dataSize <
      PacketHeader.size + PacketHeaderOption.size * 10
  · simp only [if_pos hfull]
    exact flush_between e ⟨tx, h⟩
  · simp only [if_neg hfull, EStateM.run_pure]
    rcases h.counts with hfresh | ⟨h8, hcount, hopt⟩
    · exact ⟨tx, h.tx_buffer, Or.inl hfresh⟩
    · exact ⟨tx, h.tx_buffer, Or.inr ⟨h8, hcount, hopt, by omega⟩⟩

variable (cfg raw original_size) in
/-- Compression does not touch `tx_buffer`, also when it throws. -/
theorem compressPacket_between :
    Call.Meets (BetweenCalls (H := H) cfg) (compressPacket raw original_size)
      (fun _ => BetweenCalls cfg) (fun _ => BetweenCalls cfg) := by
  refine .bind_get fun e h => .ite (fun _ => .returns rfl h) fun _ => ?_
  cases hstream : e.compressor with
  | none =>
    rintro _ rfl
    exact h
  | some stream =>
  refine .bind_returns (deref_some stream e) ?_
  cases hcomp : e.comp_buffer with
  | none =>
    rintro _ rfl
    exact h
  | some comp =>
  refine .bind_returns (deref_some comp e) ?_
  refine .bind_ofExcept (fun comp1 _ => .bind_set (.ite (fun _ => ?_) fun _ => ?_)) fun _ _ _ he => he ▸ h
  · refine .bind_ofExcept (fun buf _ => ?_) fun _ _ _ he => he ▸ h.congr rfl rfl rfl
    exact .bind_returns rfl (.bind_returns rfl (.returns rfl (h.congr rfl rfl rfl)))
  · exact .returns rfl (h.congr rfl rfl rfl)

variable (raw fuel) in
/-- **`encode`** returns or throws between two calls: what it throws comes from compression. -/
theorem encode_between (hsizes : Splittable cfg B) :
    Call.Meets (BetweenCalls (H := H) cfg) (encode cfg fuel raw) (fun _ => BetweenCalls cfg)
      (fun x e => x = .outOfRange → BetweenCalls cfg e) := by
  refine .ite (fun _ => ?_) fun _ => ?_
  · intro e h
    simp only [EStateM.run_bind, pushAvailable_run raw e]
    exact h.congr rfl rfl rfl
  refine Call.Meets.bind (Q := fun _ => BetweenCalls cfg) (fun e h => h.congr rfl rfl rfl) fun _ => ?_
  have hcompress := (compressPacket_between (H := H) cfg raw (raw.dataSize % 65536)).mono
    (fun _ h => h) (fun _ _ h => h) fun x e h (_ : x = Stop.outOfRange) => h
  refine hcompress.bind fun compressed => ?_
  obtain ⟨buf, option_format⟩ := compressed
  refine ((addPacket_counted buf (raw.dataSize % 65536) fuel option_format hsizes).mono
    (fun _ h => h) (fun _ _ h => h) ?_).bind fun _ => ?_
  · rintro x e (rfl | rfl) h
    · cases h
    · cases h
  refine ((flushIfFull_between hsizes).mono (fun _ h => h) (fun _ _ h => h) ?_).bind fun _ => ?_
  · rintro x e rfl h
    cases h
  intro e h
  rcases release_cases buf e with hrun | ⟨-, hrun⟩
  · rw [hrun]
    exact h.congr rfl rfl rfl
  · rw [hrun]
    exact h.congr rfl rfl rfl

/-- **One call** leads from between two calls to between two calls. -/
theorem step_between (hsizes : Splittable cfg B) (op : Op B) :
    Call.Meets (BetweenCalls (H := H) cfg) (step cfg fuel op) (fun _ => BetweenCalls cfg)
      (fun x e => x = .outOfRange → BetweenCalls cfg e) := by
  cases op with
  | encode raw => exact encode_between raw fuel hsizes
  | flush =>
    refine flush_between.mono (fun e h => ?_) (fun _ _ h => h) fun x e hx h => ?_
    · obtain ⟨tx, h, -⟩ := h.counted hsizes
      exact ⟨tx, h⟩
    · rw [hx] at h
      cases h

/-! ## Runs -/

/-- A new encoder has nothing in `tx_buffer`. -/
theorem Starts.betweenCalls {libs : Compressors H} {seq : UInt32} {available : List (PacketBuffer B)}
    (hsizes : Splittable cfg B) (h : Starts libs option_format seq available e) : BetweenCalls cfg e := by
  have hmin := hsizes.l4mtu_ge
  have hle := hsizes.l4mtu_le
  have hs8 : PacketHeader.size = 8 := rfl
  have hset : ∀ compressor : Option (CompressionStream H), Call.Meets (BetweenCalls cfg)
      (modify fun e => { e with compressor := compressor } : EncoderCall H B Unit)
      (fun _ => BetweenCalls cfg) Anything := fun _ e h => h.congr rfl rfl rfl
  have hnew : Call.Meets (· = (init ⟨[]⟩ ⟨available⟩ : PacketEncoder H B)) new
      (fun _ => BetweenCalls cfg) Anything := by
    refine (new_meets ⟨available⟩ (by omega)).mono (fun _ h => h) (fun _ e h => ?_) fun _ _ _ => trivial
    obtain ⟨tx, htx, h8⟩ := h.tx
    exact ⟨tx, htx, Or.inl ⟨h8, h.packet_count, h.opt_len⟩⟩
  refine (hnew.bind fun _ => ?_ : Call.Meets _ _ (fun _ => BetweenCalls cfg) Anything).ok rfl h
  refine Call.Meets.bind (Q := fun _ => BetweenCalls cfg) (fun e h => h.congr rfl rfl rfl) fun _ => ?_
  refine Call.Meets.bind (Q := fun _ => BetweenCalls cfg) (fun e h => h.congr rfl rfl rfl) fun _ => ?_
  exact .ite (fun _ => hset _) fun _ => .ite (fun _ => hset _) fun _ => .ite (fun _ => hset _)
    fun _ _ _ => trivial

/-- **The split loop makes progress** in every state that an encoder can reach, with any compressor. -/
theorem splitsSafely_of_path {libs : Compressors H} {seq : UInt32} {available : List (PacketBuffer B)}
    {e0 : PacketEncoder H B} {turns : List (Option (Op B))} (hsizes : Splittable cfg B)
    (hstart : Starts libs option_format seq available e0) (hrun : StepPath (Turn cfg) e0 turns e) :
    SplitsSafely cfg e := by
  have hbetween : BetweenCalls cfg e := by
    refine hrun.invariant (I := BetweenCalls cfg) ?_ (hstart.betweenCalls hsizes)
    intro e1 turn e2 h hturn
    cases hturn with
    | returns hcall =>
      obtain ⟨fuel, hcall⟩ := hcall
      exact (step_between hsizes _).ok h hcall
    | throws fuel hcall => exact (step_between hsizes _).error h hcall rfl
    | others => exact h.congr rfl rfl rfl
  have hcompressed : ∀ raw packetBuffer format e1,
      (compressPacket raw (raw.dataSize % 65536)).run { e with accepted := e.accepted ++ [raw.data] } =
        .ok (packetBuffer, format) e1 → BetweenCalls cfg e1 := by
    intro raw packetBuffer format e1 hcall
    refine (compressPacket_between cfg raw (raw.dataSize % 65536)).ok ?_ hcall
    exact hbetween.congr rfl rfl rfl
  refine ⟨hbetween, fun raw packetBuffer format e1 hcall => ?_,
    fun raw packetBuffer format e1 fuel e2 hcall hadd => ?_⟩
  · obtain ⟨tx, h, hroom⟩ := (hcompressed raw packetBuffer format e1 hcall).counted hsizes
    exact h.progresses packetBuffer (raw.dataSize % 65536) format hsizes hroom
  · obtain ⟨tx, h⟩ := (addPacket_counted packetBuffer (raw.dataSize % 65536) fuel format hsizes).ok
      (hcompressed raw packetBuffer format e1 hcall) hadd
    exact h.within

/-- One byte of a part in each datagram: a frame of three bytes is sent in three datagrams. -/
theorem splitsSafely_of_path_three :
    let cfg : EncoderConfig := ⟨60, 17, .little⟩
    ∃ e : PacketEncoder (List (List UInt8)) 64, e.tx_buffer_pool.pool.length = 3 ∧
      SplitsSafely cfg e := by
  intro cfg
  let frame : PacketBuffer 64 := .ofData 20 [1, 2, 3] (by decide)
  let start : EncoderCall (List (List UInt8)) 64 Unit := do
    new
    setSequence 1
    setPacketFormat (Tunnel.smallestLZ4 (.inet 58023 #v[192, 0, 2, 1])).libs NONE
  obtain ⟨⟨⟩, e, hrun, hthree⟩ := Call.exists_of_okAnd
    (p := fun e : PacketEncoder (List (List UInt8)) 64 => e.tx_buffer_pool.pool.length == 3)
    (r := (do start; step cfg 3 (.encode frame) : EncoderCall (List (List UInt8)) 64 Unit).run
      (init ⟨[]⟩ ⟨PacketBuffer.fresh 0 10⟩)) (by decide +kernel)
  obtain ⟨⟨⟩, e0, hstart, hcall⟩ := Call.run_bind_eq_ok.mp hrun
  exact ⟨e, beq_iff_eq.mp hthree, splitsSafely_of_path ⟨by decide, by decide, by decide⟩ hstart
    (.single (.returns ⟨3, hcall⟩))⟩

end PacketEncoder
end SuperEthd
