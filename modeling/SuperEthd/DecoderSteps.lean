import SuperEthd.Lib.Path
import SuperEthd.RemoteNode

/-! # What the decoder can do

One lemma says what the header of a datagram can do to a `PacketDecoder`, and one what an
option can do (`takeOption_meets`): the packet is refused, the option is ignored, skipped or
kept, or a frame is delivered.  The invariants of the decoder follow from these cases. -/
namespace SuperEthd
open PacketHeaderOptionType PacketHeaderOptionFormatType

namespace PacketDecoder
variable {H : Type} {B : Nat} (cfg : DecoderConfig H)

/-! ## Clearing, flushing, refusing -/

/-- The decoder after `_clearState`. -/
def cleared (d : PacketDecoder H B) : PacketDecoder H B :=
  { d with
    tx_buffer := d.tx_buffer.map PacketBuffer.clear
    last_part := 0
    last_format := NONE
    last_orig_packet_size := 0
    accepted := [] }

/-- The decoder after `_flushInflight`. -/
def flushed (d : PacketDecoder H B) : PacketDecoder H B :=
  resetStreams cfg { d with
    available_buffer_pool := ⟨d.available_buffer_pool.pool ++ d.inflight_buffers⟩
    inflight_buffers := [] }

/-- The decoder after it refused a packet. -/
def refusing (packetBuffer : PacketBuffer B) (d : PacketDecoder H B) : PacketDecoder H B :=
  flushed cfg { cleared d with inflight_buffers := d.inflight_buffers ++ [packetBuffer] }

variable {cfg} {d : PacketDecoder H B} {tx : PacketBuffer B} {packetBuffer : PacketBuffer B}

theorem _clearState_run (htx : d.tx_buffer = some tx) : _clearState.run d = .ok () d.cleared := by
  simp only [_clearState, EStateM.run_bind, EStateM.run_get, htx, deref_some, EStateM.run_set,
    cleared, Option.map_some]

theorem _flushInflight_run : (_flushInflight cfg).run d = .ok () (d.flushed cfg) := by
  simp only [_flushInflight, EStateM.run_bind, EStateM.run_get, BufferPool.pushBatch_packetBuffer,
    Call.run_ofExcept_ok, EStateM.run_set, flushed]

theorem clearAndFlush_run (htx : d.tx_buffer = some tx) :
    (clearAndFlush cfg).run d = .ok () (d.cleared.flushed cfg) := by
  simp only [clearAndFlush, EStateM.run_bind, _clearState_run htx, _flushInflight_run]

theorem _clearStateAndFlushInflight_run (htx : d.tx_buffer = some tx) :
    (_clearStateAndFlushInflight cfg packetBuffer).run d = .ok () (d.refusing cfg packetBuffer) := by
  simp only [_clearStateAndFlushInflight, EStateM.run_bind, _clearState_run htx, _pushInflight,
    EStateM.run_modify, _flushInflight_run, refusing]
  rfl

theorem reject_run {α : Type} (htx : d.tx_buffer = some tx) :
    (reject cfg packetBuffer : DecoderCall H B (Option α)).run d =
      .ok none (d.refusing cfg packetBuffer) := by
  simp only [reject, EStateM.run_bind, _clearStateAndFlushInflight_run htx, EStateM.run_pure]

theorem refuse_run (htx : d.tx_buffer = some tx) :
    (refuse cfg packetBuffer).run d = .ok .refused (d.refusing cfg packetBuffer) := by
  simp only [refuse, EStateM.run_bind, _clearStateAndFlushInflight_run htx, EStateM.run_pure]

/-- `_getTxBuffer` waits, or takes a buffer and clears the reassembly state. -/
theorem _getTxBuffer_run :
    d.available_buffer_pool.pool = [] ∧ _getTxBuffer.run d = .error .blocked d ∨
    ∃ b rest, d.available_buffer_pool.pool = b :: rest ∧ _getTxBuffer.run d = .ok () (cleared { d with
      tx_buffer := some b
      available_buffer_pool := ⟨rest⟩ }) := by
  cases h : d.available_buffer_pool.pool with
  | nil =>
    refine Or.inl ⟨rfl, ?_⟩
    simp [_getTxBuffer, BufferPool.pop_wait, h]
  | cons b rest =>
    refine Or.inr ⟨b, rest, rfl, ?_⟩
    simp only [_getTxBuffer, EStateM.run_bind, EStateM.run_get, BufferPool.pop_wait, h,
      Call.run_ofExcept_ok, EStateM.run_set]
    rw [_clearState_run rfl]

/-! ## Filling and delivering -/

/-- The libraries keep to the size of the buffers. -/
structure LibsBounded (cfg : DecoderConfig H) (B : Nat) : Prop where
  lz4 : cfg.libs.lz4.DecompressBounded B
  zstd : cfg.libs.zstd.DecompressBounded B

/-- The libraries and the state keep the sizes of the data within the buffers. -/
structure SizesOk (cfg : DecoderConfig H) (d : PacketDecoder H B) : Prop
    extends LibsBounded cfg B where
  empty : ∀ tx, d.last_part = 0 → d.tx_buffer = some tx → tx.dataSize = 0

/-- **A record is tried**: its payload may be copied or decompressed.  The two buffers may be swapped
and their contents differ; the streams move on, and a call of LZ4's `decompress` is recorded. -/
structure Tried (format : PacketHeaderOptionFormatType) (d d' : PacketDecoder H B) : Prop where
  first_packet : d'.first_packet = d.first_packet
  last_sequence : d'.last_sequence = d.last_sequence
  inflight_buffers : d'.inflight_buffers = d.inflight_buffers
  tx_buffer_pool : d'.tx_buffer_pool = d.tx_buffer_pool
  available_buffer_pool : d'.available_buffer_pool = d.available_buffer_pool
  completedBy : d'.completedBy = d.completedBy
  buffers : ∃ tx dc tx' dc', d.tx_buffer = some tx ∧ d.dcomp_buffer = some dc ∧
    d'.tx_buffer = some tx' ∧ d'.dcomp_buffer = some dc' ∧
    (tx'.id = tx.id ∧ dc'.id = dc.id ∨ tx'.id = dc.id ∧ dc'.id = tx.id)
  lz4Calls : d'.lz4Calls = d.lz4Calls ∨
    format = COMPRESSED_LZ4 ∧ ∃ call : Lz4Call B, d'.lz4Calls = d.lz4Calls ++ [call] ∧
      call.blocks = d.blocks
  blocks : format ≠ COMPRESSED_LZ4 → d'.blocks = d.blocks

variable {option : PacketHeaderOption} {pos : Nat} {format : PacketHeaderOptionFormatType}

/-- The sizes are not known to be within the buffers. -/
def SizesBroken (cfg : DecoderConfig H) (d : PacketDecoder H B) (_ : Stop) (_ : PacketDecoder H B) :
    Prop := ¬SizesOk cfg d

variable (cfg packetBuffer format) in
/-- `decompress` writes to its output and moves one stream on. -/
theorem decompress_meets (input : List UInt8) (output : PacketBuffer B) :
    Call.Meets (· = d) (decompress cfg packetBuffer format input output)
      (fun r d' => r.2.id = output.id ∧ (LibsBounded cfg B → r.1 ≤ B) ∧
        ∃ history history' blocks calls, d' = { d with
            compressorLZ4 := history
            compressorZSTD := history'
            blocks := blocks
            lz4Calls := calls } ∧
          (calls = d.lz4Calls ∨ format = COMPRESSED_LZ4 ∧ ∃ call : Lz4Call B,
            calls = d.lz4Calls ++ [call] ∧ call.blocks = d.blocks) ∧
          (format ≠ COMPRESSED_LZ4 → blocks = d.blocks))
      (fun _ _ => ¬LibsBounded cfg B) := by
  rintro d rfl
  by_cases hf : format = COMPRESSED_LZ4
  · simp only [decompress, EStateM.run_bind, EStateM.run_get, if_pos hf,
      PacketBuffer.getBufferSize_eq]
    by_cases hlen : 0 + (cfg.libs.lz4.decompress d.compressorLZ4 input B).output.length ≤ B
    · obtain ⟨out, hw, -, hid, -⟩ := PacketBuffer.writeAt_ok output _ _ hlen
      simp only [hw, Call.run_ofExcept_ok, EStateM.run_set, EStateM.run_pure]
      exact ⟨hid, fun hok => hok.lz4.result_le _ _, _, _, _, _, rfl, Or.inr ⟨hf, _, rfl, rfl⟩,
        fun hn => absurd hf hn⟩
    · have hw : output.writeAt 0 (cfg.libs.lz4.decompress d.compressorLZ4 input B).output =
          .error .overrun := dif_neg hlen
      simp only [hw, Call.run_ofExcept_error]
      intro hok
      exact hlen (by rw [Nat.zero_add]; exact hok.lz4.output_le _ _)
  · simp only [decompress, EStateM.run_bind, EStateM.run_get, if_neg hf,
      PacketBuffer.getBufferSize_eq]
    by_cases hlen : 0 + (cfg.libs.zstd.decompress d.compressorZSTD input B).output.length ≤ B
    · obtain ⟨out, hw, -, hid, -⟩ := PacketBuffer.writeAt_ok output _ _ hlen
      simp only [hw, Call.run_ofExcept_ok, EStateM.run_set, EStateM.run_pure]
      exact ⟨hid, fun hok => hok.zstd.result_le _ _, _, _, _, _, rfl, Or.inl rfl, fun _ => rfl⟩
    · have hw : output.writeAt 0 (cfg.libs.zstd.decompress d.compressorZSTD input B).output =
          .error .overrun := dif_neg hlen
      simp only [hw, Call.run_ofExcept_error]
      intro hok
      exact hlen (by rw [Nat.zero_add]; exact hok.zstd.output_le _ _)

/-- Both `fillComplete` and the last part of `finishPartial` set the size decompression gave. -/
theorem setDataSize_of_sizes (out : PacketBuffer B) {n : Int} (hn : ¬n < 0)
    (hle : LibsBounded cfg B → n ≤ B) :
    (∃ out', out.setDataSize n.toNat = .ok out' ∧ out'.id = out.id) ∨
      ¬LibsBounded cfg B ∧ out.setDataSize n.toNat = .error .outOfRange := by
  by_cases hB : n.toNat ≤ B
  · obtain ⟨out', h, -, hid, -⟩ := PacketBuffer.setDataSize_ok out hB
    exact Or.inl ⟨out', h, hid⟩
  · exact Or.inr ⟨fun hok => hB (by have := hle hok; omega), dif_neg hB⟩

variable {dc : PacketBuffer B}

/-- **`fillComplete`** tries the record. -/
theorem fillComplete_meets {packet_pos : Nat} (htx : d.tx_buffer = some tx)
    (hdc : d.dcomp_buffer = some dc) (hlast : d.last_part = 0)
    (hfit : packet_pos + option.payload_length ≤ packetBuffer.dataSize) :
    Call.Meets (· = d) (fillComplete cfg packetBuffer option packet_pos)
      (fun _ d' => Tried option.format d d') (SizesBroken cfg d) := by
  rintro d rfl
  by_cases hc : option.formatIsCompressed = true
  · simp only [fillComplete, EStateM.run_bind, EStateM.run_get, htx, deref_some, if_pos hc]
    rcases (decompress_meets cfg packetBuffer option.format
        (packetBuffer.slice packet_pos option.payload_length) tx).of_run (rfl : d = d) with
      ⟨⟨n, out⟩, d1, hrun, hid, hle, history, history', blocks, calls, rfl, hcalls, hblocks⟩ |
      ⟨x, d1, hrun, hE⟩
    · have htried : ∀ tx', tx'.id = tx.id → Tried option.format d { d with
          compressorLZ4 := history
          compressorZSTD := history'
          blocks := blocks
          lz4Calls := calls
          tx_buffer := some tx' } := fun tx' hid' =>
        ⟨rfl, rfl, rfl, rfl, rfl, rfl, ⟨tx, dc, tx', dc, htx, hdc, rfl, hdc, Or.inl ⟨hid', rfl⟩⟩,
          hcalls, hblocks⟩
      simp only [hrun, EStateM.run_modify]
      by_cases hn : n < 0
      · simp only [if_pos hn, EStateM.run_pure]
        exact htried out hid
      · simp only [if_neg hn, EStateM.run_bind]
        rcases setDataSize_of_sizes out hn hle with ⟨out', hset, hid'⟩ | ⟨hbad, hset⟩
        · simp only [hset, Call.run_ofExcept_ok, EStateM.run_modify, EStateM.run_pure]
          exact htried out' (hid'.trans hid)
        · simp only [hset, Call.run_ofExcept_error]
          exact fun hok => hbad hok.toLibsBounded
    · simp only [hrun]
      exact fun hok => hE hok.toLibsBounded
  · simp only [fillComplete, EStateM.run_bind, EStateM.run_get, htx, deref_some, if_neg hc]
    by_cases happ : tx.dataSize + (packetBuffer.slice packet_pos option.payload_length).length ≤ B
    · obtain ⟨tx', h, -, hid, -⟩ := PacketBuffer.append_ok _ _ happ
      simp only [h, Call.run_ofExcept_ok, EStateM.run_modify, EStateM.run_pure]
      exact ⟨rfl, rfl, rfl, rfl, rfl, rfl, ⟨tx, dc, tx', dc, htx, hdc, rfl, hdc, Or.inl ⟨hid, rfl⟩⟩,
        Or.inl rfl, fun _ => rfl⟩
    · have hle := tx.dataSize_le
      have h : tx.append (packetBuffer.slice packet_pos option.payload_length) =
          .error .outOfRange := dif_pos (by omega)
      simp only [h, Call.run_ofExcept_error]
      intro hok
      have h0 := hok.empty tx hlast htx
      have hpkt := packetBuffer.dataSize_le
      rw [PacketBuffer.slice_length hfit] at happ
      omega

/-- **`finishPartial`** tries what the parts gave. -/
theorem finishPartial_meets (htx : d.tx_buffer = some tx) (hdc : d.dcomp_buffer = some dc) :
    Call.Meets (· = d) (finishPartial cfg packetBuffer option)
      (fun _ d' => Tried option.format d d') (fun _ _ => ¬LibsBounded cfg B) := by
  rintro d rfl
  by_cases hc : option.formatIsCompressed = true
  · simp only [finishPartial, if_pos hc, EStateM.run_bind, EStateM.run_get, htx, hdc, deref_some]
    rcases (decompress_meets cfg packetBuffer option.format tx.data dc).of_run (rfl : d = d) with
      ⟨⟨n, out⟩, d1, hrun, hid, hle, history, history', blocks, calls, rfl, hcalls, hblocks⟩ |
      ⟨x, d1, hrun, hE⟩
    · simp only [hrun, EStateM.run_modify]
      by_cases hn : n < 0
      · simp only [if_pos hn, EStateM.run_pure]
        exact ⟨rfl, rfl, rfl, rfl, rfl, rfl, ⟨tx, dc, tx, out, htx, hdc, htx, rfl, Or.inl ⟨rfl, hid⟩⟩,
          hcalls, hblocks⟩
      · simp only [if_neg hn, EStateM.run_bind]
        rcases setDataSize_of_sizes out hn hle with ⟨out', hset, hid'⟩ | ⟨hbad, hset⟩
        · simp only [hset, Call.run_ofExcept_ok, EStateM.run_modify, EStateM.run_pure]
          exact ⟨rfl, rfl, rfl, rfl, rfl, rfl,
            ⟨tx, dc, out', tx, htx, hdc, rfl, htx, Or.inr ⟨hid'.trans hid, rfl⟩⟩, hcalls, hblocks⟩
        · simp only [hset, Call.run_ofExcept_error]
          exact hbad
    · simp only [hrun]
      exact hE
  · simp only [finishPartial, if_neg hc, EStateM.run_pure]
    exact ⟨rfl, rfl, rfl, rfl, rfl, rfl, ⟨tx, dc, tx, dc, htx, hdc, htx, hdc, Or.inl ⟨rfl, rfl⟩⟩,
      Or.inl rfl, fun _ => rfl⟩

/-- `deliver` pushes the frame in `tx_buffer`, if it has the size its option says. -/
def pushed (packetBuffer : PacketBuffer B) (option : PacketHeaderOption) (tx : PacketBuffer B)
    (d : PacketDecoder H B) : PacketDecoder H B :=
  { d with
    tx_buffer := none
    tx_buffer_pool := ⟨d.tx_buffer_pool.pool ++ [{ tx with source := packetBuffer.source }]⟩
    completedBy := d.completedBy ++ [option] }

theorem deliver_run (htx : d.tx_buffer = some tx) :
    (deliver packetBuffer option).run d =
      if tx.dataSize = option.packet_size then .ok true (d.pushed packetBuffer option tx)
      else .ok false d := by
  by_cases h : tx.dataSize = option.packet_size
  · simp only [deliver, EStateM.run_bind, EStateM.run_get, htx, deref_some, ne_eq, h, not_true,
      if_false, BufferPool.push_packetBuffer, Call.run_ofExcept_ok, EStateM.run_set,
      EStateM.run_pure, if_true, pushed]
  · simp only [deliver, EStateM.run_bind, EStateM.run_get, htx, deref_some, ne_eq, h,
      not_false_iff, if_true, EStateM.run_pure, if_false]

/-! ## One option -/

/-- The decoder when the payload of the option is looked at: one that carries a whole frame drops a
frame that is pending. -/
def begun (cfg : DecoderConfig H) (option : PacketHeaderOption) (d : PacketDecoder H B) :
    PacketDecoder H B :=
  if option.type = COMPLETE_PACKET ∧ d.last_part ≠ 0 then d.cleared.flushed cfg else d

/-- The decoder after it kept a part in `tx`. -/
def keeping (option : PacketHeaderOption) (payload : List UInt8) (tx : PacketBuffer B)
    (d : PacketDecoder H B) : PacketDecoder H B :=
  { d with
    tx_buffer := some tx
    last_part := option.part
    last_format := option.format
    last_orig_packet_size := option.packet_size
    accepted := d.accepted ++ [⟨option.part, option.packet_size, option.format, payload⟩] }

/-- The payload of the option is looked at. -/
def Used (d : PacketDecoder H B) (option : PacketHeaderOption) : Prop :=
  option.type = COMPLETE_PACKET ∨ option.typeIsPartial = true ∧ unusable d option = false

/-- The frame of the option is not too big, and its type is one that is handled. -/
def Handled (cfg : DecoderConfig H) (option : PacketHeaderOption) : Prop :=
  option.packet_size ≤ cfg.l2mtu ∧ (option.type = COMPLETE_PACKET ∨ option.typeIsPartial = true)

instance (cfg : DecoderConfig H) (option : PacketHeaderOption) : Decidable (Handled cfg option) :=
  inferInstanceAs (Decidable (_ ∧ _))

/-- The option at `pos` passes the checks that are made before its payload is looked at, as far as the
datagram decides them. -/
structure Checked (cfg : DecoderConfig H) (packetBuffer : PacketBuffer B) (pos : Nat)
    (option : PacketHeaderOption) : Prop where
  size : option.packet_size ≤ cfg.l2mtu
  part : option.type = COMPLETE_PACKET → option.part = 0
  fits : (pos + PacketHeaderOption.size) % 65536 + option.payload_length ≤ packetBuffer.dataSize

/-- **What an option can do**, for a decoder with `tx_buffer` `tx`. -/
inductive Outcome (cfg : DecoderConfig H) (packetBuffer : PacketBuffer B) (pos : Nat) (flag : Bool)
    (option : PacketHeaderOption) (tx : PacketBuffer B) (d : PacketDecoder H B) :
    Progress → PacketDecoder H B → Prop
  | refused {d1} : Tried option.format (d.begun cfg option) d1 →
      d1 = d.begun cfg option ∨ Used d option ∧ Checked cfg packetBuffer pos option →
      Outcome cfg packetBuffer pos flag option tx d .refused (d1.refusing cfg packetBuffer)
  | ignored : option.type ≠ COMPLETE_PACKET → option.typeIsPartial = false →
      Outcome cfg packetBuffer pos flag option tx d (.onto pos flag) d
  | skipped : option.type ≠ COMPLETE_PACKET → option.typeIsPartial = true →
      unusable d option = true → option.packet_size ≤ cfg.l2mtu →
      Outcome cfg packetBuffer pos flag option tx d (.onto (nextPos option pos) false)
        (d.cleared.flushed cfg)
  | kept {payload tx'} : option.type ≠ COMPLETE_PACKET → option.typeIsPartial = true →
      option.typeIsComplete = false → unusable d option = false →
      option.packet_size ≤ cfg.l2mtu → tx'.data = tx.data ++ payload → tx'.id = tx.id →
      (option.formatIsCompressed = false → tx'.dataSize ≤ option.packet_size) →
      Checked cfg packetBuffer pos option →
      Outcome cfg packetBuffer pos flag option tx d (.onto (nextPos option pos) false)
        (d.keeping option payload tx')
  | delivered {d1 frame} : option.packet_size ≤ cfg.l2mtu → Used d option →
      Tried option.format (d.begun cfg option) d1 → d1.tx_buffer = some frame →
      frame.dataSize = option.packet_size → Checked cfg packetBuffer pos option →
      Outcome cfg packetBuffer pos flag option tx d
        (.delivered (option.type ≠ COMPLETE_PACKET) (nextPos option pos))
        (d1.pushed packetBuffer option frame)

variable (format) in
theorem Tried.refl (htx : d.tx_buffer = some tx) (hdc : d.dcomp_buffer = some dc) :
    Tried format d d :=
  ⟨rfl, rfl, rfl, rfl, rfl, rfl, ⟨tx, dc, tx, dc, htx, hdc, htx, hdc, Or.inl ⟨rfl, rfl⟩⟩, Or.inl rfl,
    fun _ => rfl⟩

variable (cfg option) in
theorem begun_tx_buffer (htx : d.tx_buffer = some tx) :
    ∃ tx', (d.begun cfg option).tx_buffer = some tx' ∧ tx'.id = tx.id := by
  unfold begun
  split
  · exact ⟨tx.clear, congrArg (Option.map PacketBuffer.clear) htx, rfl⟩
  · exact ⟨tx, htx, rfl⟩

variable (cfg d option) in
theorem begun_dcomp_buffer : (d.begun cfg option).dcomp_buffer = d.dcomp_buffer := by
  unfold begun
  split <;> rfl

variable (cfg) in
theorem begun_of_part (h : option.type ≠ COMPLETE_PACKET) : d.begun cfg option = d :=
  if_neg fun h' => h h'.1

/-- `SizesOk` is kept when reassembly state is dropped. -/
theorem SizesOk.begun (h : SizesOk cfg d) : SizesOk cfg (d.begun cfg option) := by
  refine ⟨h.toLibsBounded, fun tx' h0 htx' => ?_⟩
  unfold PacketDecoder.begun at h0 htx'
  split at htx'
  · obtain ⟨tx, -, rfl⟩ := Option.map_eq_some_iff.mp htx'
    rfl
  · rename_i hb
    rw [if_neg hb] at h0
    exact h.empty tx' h0 htx'

variable (cfg) in
theorem begun_last_part (htype : option.type = COMPLETE_PACKET) :
    (d.begun cfg option).last_part = 0 := by
  unfold begun
  split
  · rfl
  · rename_i hb
    exact Decidable.not_not.mp fun h0 => hb ⟨htype, h0⟩

/-- An option that carries a whole frame is taken as if no frame was pending. -/
theorem completeOption_run_begun (htype : option.type = COMPLETE_PACKET)
    (htx : d.tx_buffer = some tx) :
    (completeOption cfg packetBuffer option pos).run d =
      (completeOption cfg packetBuffer option pos).run (d.begun cfg option) := by
  by_cases h0 : d.last_part = 0
  · rw [begun, if_neg fun h : option.type = COMPLETE_PACKET ∧ d.last_part ≠ 0 => h.2 h0]
  · have h0' := begun_last_part cfg (d := d) htype
    rw [begun, if_pos ⟨htype, h0⟩] at h0' ⊢
    simp only [completeOption, EStateM.run_bind, EStateM.run_get, h0, h0', ne_eq, not_false_iff,
      not_true, if_true, if_false, clearAndFlush_run htx]

section
variable {flag : Bool} {d1 : PacketDecoder H B} {tx1 : PacketBuffer B} {E : Stop → PacketDecoder H B → Prop}

theorem refuse_meets (htried : Tried option.format (d.begun cfg option) d1)
    (hused : d1 = d.begun cfg option ∨ Used d option ∧ Checked cfg packetBuffer pos option)
    (htx1 : d1.tx_buffer = some tx1) :
    Call.Meets (· = d1) (refuse cfg packetBuffer) (Outcome cfg packetBuffer pos flag option tx d) E :=
  .returns (refuse_run htx1) (.refused htried hused)

variable (flag tx) in
/-- A frame that was tried is delivered if it has its size, else the packet is refused. -/
theorem deliver_meets (hchecked : Checked cfg packetBuffer pos option) (hused : Used d option)
    (filled : Bool) (htried : Tried option.format (d.begun cfg option) d1) :
    Call.Meets (· = d1)
      (if !filled then refuse cfg packetBuffer
      else do
        if !(← deliver packetBuffer option) then refuse cfg packetBuffer
        else return .delivered (option.type ≠ COMPLETE_PACKET) (nextPos option pos))
      (Outcome cfg packetBuffer pos flag option tx d) E := by
  obtain ⟨-, -, tx1, -, -, -, htx1, -⟩ := htried.buffers
  refine .ite (fun _ => refuse_meets htried (Or.inr ⟨hused, hchecked⟩) htx1) fun _ => ?_
  by_cases hsz : tx1.dataSize = option.packet_size
  · refine .bind_returns ((deliver_run htx1).trans (if_pos hsz)) ?_
    exact .returns rfl (.delivered hchecked.size hused htried htx1 hsz hchecked)
  · exact .bind_returns ((deliver_run htx1).trans (if_neg hsz))
      (refuse_meets htried (Or.inr ⟨hused, hchecked⟩) htx1)

/-- **An option that carries a whole frame** is refused, or the frame is delivered. -/
theorem completeOption_meets (htype : option.type = COMPLETE_PACKET)
    (hsize : option.packet_size ≤ cfg.l2mtu) (htx : d.tx_buffer = some tx)
    (hdc : d.dcomp_buffer = some dc) :
    Call.Meets (· = d) (completeOption cfg packetBuffer option pos)
      (Outcome cfg packetBuffer pos flag option tx d) (SizesBroken cfg d) := by
  obtain ⟨tx1, htx1, -⟩ := begun_tx_buffer cfg option htx
  have hdc1 := (begun_dcomp_buffer cfg d option).trans hdc
  have h0 := begun_last_part cfg (d := d) htype
  have hrefl := Tried.refl option.format htx1 hdc1
  suffices h : Call.Meets (· = d.begun cfg option) (completeOption cfg packetBuffer option pos)
      (Outcome cfg packetBuffer pos flag option tx d) (SizesBroken cfg d) by
    rintro _ rfl
    rw [completeOption_run_begun htype htx]
    exact h _ rfl
  refine .bind_returns (t := d.begun cfg option) rfl ?_
  rw [if_neg (not_not.mpr h0)]
  refine .ite (fun _ => refuse_meets hrefl (Or.inl rfl) htx1) fun hzero => ?_
  refine .ite (fun _ => refuse_meets hrefl (Or.inl rfl) htx1) fun hfit => ?_
  have hchecked : Checked cfg packetBuffer pos option :=
    ⟨hsize, fun _ => of_not_not hzero, Nat.le_of_not_lt hfit⟩
  refine Call.Meets.bind ((fillComplete_meets htx1 hdc1 h0 (Nat.le_of_not_lt hfit)).mono
    (fun _ h => h) (fun _ _ h => h) fun _ _ hbad hok => hbad hok.begun) fun filled d1 htried => ?_
  have hd := deliver_meets tx flag (E := SizesBroken cfg d) hchecked (Or.inl htype) filled htried d1 rfl
  rwa [decide_eq_false (not_not.mpr htype)] at hd

/-- The part is put behind those in `tx_buffer`, which are then tried. -/
theorem Tried.of_append {parts : List Part} (htx : d.tx_buffer = some tx) (hid : tx1.id = tx.id)
    (h : Tried format { d with tx_buffer := some tx1, accepted := parts } d1) :
    Tried format d d1 := by
  obtain ⟨tx2, dc, tx3, dc3, h2, hdc, h3, hdc3, hids⟩ := h.buffers
  obtain rfl : tx1 = tx2 := Option.some.inj h2
  exact ⟨h.1, h.2, h.3, h.4, h.5, h.6, ⟨tx, dc, tx3, dc3, htx, hdc, h3, hdc3, hid ▸ hids⟩, h.8, h.9⟩

/-- **An option that carries a part** is refused, skipped or kept, or ends its frame, which is
delivered. -/
theorem partialOption_meets (htype : option.type ≠ COMPLETE_PACKET)
    (hpart : option.typeIsPartial = true) (hsize : option.packet_size ≤ cfg.l2mtu)
    (htx : d.tx_buffer = some tx) (hdc : d.dcomp_buffer = some dc) :
    Call.Meets (· = d) (partialOption cfg packetBuffer option pos)
      (Outcome cfg packetBuffer pos flag option tx d) (SizesBroken cfg d) := by
  have hbegun := begun_of_part cfg (d := d) htype
  have hrefl : Tried option.format (d.begun cfg option) d := hbegun.symm ▸ .refl _ htx hdc
  refine .bind_returns (t := d) rfl (.ite (fun hun => ?_) fun hun => ?_)
  · exact .bind_returns (clearAndFlush_run htx) (.returns rfl (.skipped htype hpart hun hsize))
  rw [Bool.not_eq_true] at hun
  refine .ite (fun _ => refuse_meets hrefl (Or.inl hbegun.symm) htx) fun hfit => ?_
  rw [htx]
  refine .bind_returns (deref_some tx d) ?_
  rw [PacketBuffer.getBufferSize_eq]
  refine .ite (fun _ => refuse_meets hrefl (Or.inl hbegun.symm) htx) fun hroom => ?_
  refine .ite (fun _ => refuse_meets hrefl (Or.inl hbegun.symm) htx) fun hsmall => ?_
  have hchecked : Checked cfg packetBuffer pos option :=
    ⟨hsize, fun h => absurd h htype, Nat.le_of_not_lt hfit⟩
  have hlen := PacketBuffer.slice_length (Nat.le_of_not_lt hfit)
  obtain ⟨tx1, happ, hdata, hid, hds⟩ := PacketBuffer.append_ok tx
    (packetBuffer.slice ((pos + PacketHeaderOption.size) % 65536) option.payload_length)
    (by omega)
  simp only [happ]
  refine .bind_returns rfl (.bind_returns rfl (.ite (fun hcomplete => ?_) fun hcomplete => ?_))
  · refine Call.Meets.bind ((finishPartial_meets
        (d := { d with tx_buffer := some tx1, accepted := _ }) rfl hdc).mono (fun _ h => h)
      (fun _ _ h => h) fun _ _ hbad hok => hbad hok.toLibsBounded) fun filled d1 htried => ?_
    replace htried := Tried.of_append htx hid htried
    rw [← hbegun] at htried
    have hd := deliver_meets tx flag (E := SizesBroken cfg d) hchecked (Or.inr ⟨hpart, hun⟩) filled htried d1 rfl
    rwa [decide_eq_true htype] at hd
  · refine .bind_returns rfl (.returns rfl (.kept htype hpart ?_ hun hsize hdata hid (fun hc => ?_) hchecked))
    · rwa [Bool.not_eq_true] at hcomplete
    · rw [hc] at hsmall
      simp only [Bool.not_false, true_and, not_lt] at hsmall
      omega

variable (option) in
theorem refusing_begun : (d.begun cfg option).refusing cfg packetBuffer = d.refusing cfg packetBuffer := by
  unfold begun
  split
  · simp [refusing, flushed, cleared, resetStreams, List.append_assoc, Function.comp_def]
  · rfl

/-- **One option**, in any state between two options. -/
theorem takeOption_meets (htx : d.tx_buffer = some tx) (hdc : d.dcomp_buffer = some dc) :
    Call.Meets (· = d) (takeOption cfg packetBuffer pos flag)
      (Outcome cfg packetBuffer pos flag (optionAt cfg packetBuffer pos) tx d)
      (SizesBroken cfg d) := by
  refine .ite (fun _ => ?_) fun hsize => ?_
  · obtain ⟨tx1, htx1, -⟩ := begun_tx_buffer cfg (optionAt cfg packetBuffer pos) htx
    have hdc1 := begun_dcomp_buffer cfg d (optionAt cfg packetBuffer pos)
    refine .returns (refuse_run htx) ?_
    rw [← refusing_begun (optionAt cfg packetBuffer pos)]
    exact .refused (.refl _ htx1 (hdc1.trans hdc)) (Or.inl rfl)
  refine .ite (fun htype => completeOption_meets htype (Nat.le_of_not_lt hsize) htx hdc)
    fun htype => ?_
  refine .ite (fun hpart => partialOption_meets htype hpart (Nat.le_of_not_lt hsize) htx hdc)
    fun hpart => ?_
  exact .returns rfl (.ignored htype (Bool.eq_false_iff.mpr hpart))

end

/-! ## The header -/

/-- Reassembly goes on with the number: it is the first one, or the one expected, or
`is_sequence_wrapping` takes it for the one behind a wrap. -/
def goesOn (sequence : UInt32) (d : PacketDecoder H B) : Bool :=
  d.first_packet || sequence == d.last_sequence + 1 ||
    (sequence < d.last_sequence + 1 && is_sequence_wrapping sequence d.last_sequence)

/-- The decoder after the sequence check. -/
def arrived (cfg : DecoderConfig H) (sequence : UInt32) (d : PacketDecoder H B) :
    PacketDecoder H B :=
  { (if d.goesOn sequence then d else d.cleared.flushed cfg) with
    first_packet := false
    last_sequence := sequence }

/-- **The sequence check** drops reassembly state unless the number goes on. -/
theorem checkSequence_run {sequence : UInt32} (htx : d.tx_buffer = some tx) :
    (checkSequence cfg sequence).run d = .ok () (d.arrived cfg sequence) := by
  have hirrefl : ∀ n : UInt32, ¬n < n := fun n => UInt32.lt_irrefl n
  cases hfirst : d.first_packet with
  | true =>
    simp only [checkSequence, EStateM.run_bind, EStateM.run_modify, hfirst, if_true, EStateM.run_get,
      UInt32.sub_add_cancel, gt_iff_lt, if_neg (hirrefl _), arrived, goesOn, Bool.true_or]
  | false =>
    have hflushed : (d.cleared.flushed cfg).first_packet = false := hfirst
    by_cases hgt : sequence > d.last_sequence + 1
    · have hlt : ¬sequence < d.last_sequence + 1 := UInt32.lt_asymm hgt
      have hne : (sequence == d.last_sequence + 1) = false :=
        beq_false_of_ne fun h => hirrefl _ (h ▸ hgt)
      simp only [checkSequence, EStateM.run_bind, EStateM.run_modify, hfirst, Bool.false_eq_true,
        if_false, EStateM.run_get, if_pos hgt, clearAndFlush_run htx, if_neg hlt, arrived, goesOn,
        hne, decide_eq_false hlt, Bool.false_and, Bool.or_false, hflushed]
    by_cases hlt : sequence < d.last_sequence + 1
    · have hne : (sequence == d.last_sequence + 1) = false :=
        beq_false_of_ne fun h => hirrefl _ (h ▸ hlt)
      cases hw : is_sequence_wrapping sequence d.last_sequence with
      | true =>
        simp only [checkSequence, EStateM.run_bind, EStateM.run_modify, hfirst, Bool.false_eq_true,
          if_false, EStateM.run_get, if_neg hgt, if_pos hlt, hw, if_true, arrived, goesOn, hne,
          decide_eq_true hlt, Bool.true_and, Bool.or_true]
      | false =>
        simp only [checkSequence, EStateM.run_bind, EStateM.run_modify, hfirst, Bool.false_eq_true,
          if_false, EStateM.run_get, if_neg hgt, if_pos hlt, hw, clearAndFlush_run htx, arrived,
          goesOn, hne, decide_eq_true hlt, Bool.and_false, Bool.or_false, hflushed]
    · have heq : (sequence == d.last_sequence + 1) = true := by
        rw [beq_iff_eq]
        exact UInt32.le_antisymm (UInt32.not_lt.mp hgt) (UInt32.not_lt.mp hlt)
      simp only [checkSequence, EStateM.run_bind, EStateM.run_modify, hfirst, Bool.false_eq_true,
        if_false, EStateM.run_get, if_neg hgt, if_neg hlt, arrived, goesOn, heq, Bool.false_or,
        Bool.true_or, if_true]

/-- The loop over the header options lets a datagram pass that has one of them, with a type that is
valid. -/
theorem scanOptions_run (htx : d.tx_buffer = some tx) (opt_len : Nat) :
    (scanOptions cfg packetBuffer opt_len opt_len 0 PacketHeader.size 0).run d =
      if opt_len = 1 ∧ PacketHeaderOption.size ≤ packetBuffer.dataSize - PacketHeader.size ∧
          (optionAt cfg packetBuffer PacketHeader.size).reserved = 0 ∧
          (optionAt cfg packetBuffer PacketHeader.size).typeIsValid = true then
        .ok (some PacketHeader.size) d
      else .ok none (d.refusing cfg packetBuffer) := by
  cases opt_len with
  | zero => simp [scanOptions, reject_run htx]
  | succ n =>
    simp only [scanOptions]
    split
    · rename_i h
      rw [if_neg (by omega), reject_run htx]
    split
    · rename_i h
      rw [if_neg (fun h' => h h'.2.2.1), reject_run htx]
    simp only [if_true]
    split
    · split
      · rename_i h
        rw [if_neg (by omega), reject_run htx]
      · obtain rfl : n = 0 := by omega
        rw [if_pos (by refine ⟨rfl, by omega, Decidable.not_not.mp ‹_›, ‹_›⟩)]
        rfl
    · rename_i h
      rw [if_neg (fun h' => h h'.2.2.2), reject_run htx]

/-- The fields of the packet header that `decode` checks. -/
def HeaderValid (header : PacketHeader) : Prop :=
  header.ver ≤ SETH_PACKET_HEADER_VERSION_V1 ∧ header.reserved = 0 ∧
    header.format = PacketHeaderFormat.ENCAPSULATED ∧ header.channel = 0

instance (header : PacketHeader) : Decidable (HeaderValid header) :=
  inferInstanceAs (Decidable (_ ∧ _))

variable (cfg packetBuffer) in
/-- What the loop over the header options lets pass. -/
def FirstOptionValid : Prop :=
  (headerOf cfg packetBuffer).opt_len = 1 ∧
    PacketHeaderOption.size ≤ packetBuffer.dataSize - PacketHeader.size ∧
    (optionAt cfg packetBuffer PacketHeader.size).reserved = 0 ∧
    (optionAt cfg packetBuffer PacketHeader.size).typeIsValid = true

instance : Decidable (FirstOptionValid cfg packetBuffer) :=
  inferInstanceAs (Decidable (_ ∧ _))

/-- **What a header can do.** -/
inductive Opened (cfg : DecoderConfig H) (packetBuffer : PacketBuffer B) (d : PacketDecoder H B) :
    Option Nat → PacketDecoder H B → Prop
  | short : packetBuffer.dataSize < PacketHeader.size →
      Opened cfg packetBuffer d none { d with
        available_buffer_pool := ⟨d.available_buffer_pool.pool ++ [packetBuffer]⟩
        tx_buffer := d.tx_buffer.map PacketBuffer.clear }
  | refused {d1} : PacketHeader.size ≤ packetBuffer.dataSize →
      d1 = d ∨ d1 = d.arrived cfg (headerOf cfg packetBuffer).sequence →
      Opened cfg packetBuffer d none (d1.refusing cfg packetBuffer)
  | passed : PacketHeader.size ≤ packetBuffer.dataSize → HeaderValid (headerOf cfg packetBuffer) →
      FirstOptionValid cfg packetBuffer → Opened cfg packetBuffer d (some PacketHeader.size)
        (d.arrived cfg (headerOf cfg packetBuffer).sequence)

variable (cfg) in
theorem arrived_tx_buffer (sequence : UInt32) (htx : d.tx_buffer = some tx) :
    ∃ tx', (d.arrived cfg sequence).tx_buffer = some tx' ∧ tx'.id = tx.id := by
  simp only [arrived]
  split
  · exact ⟨tx, htx, rfl⟩
  · exact ⟨tx.clear, congrArg (Option.map PacketBuffer.clear) htx, rfl⟩

/-- **A header** is refused, or the datagram is read from its first option on. -/
theorem decodeHeader_meets {E : Stop → PacketDecoder H B → Prop} (htx : d.tx_buffer = some tx) :
    Call.Meets (· = d) (decodeHeader cfg packetBuffer) (Opened cfg packetBuffer d) E := by
  refine .ite (fun hshort => ?_) fun hlong => ?_
  · refine .bind_returns (t := d) rfl ?_
    rw [BufferPool.push_packetBuffer, htx]
    refine .bind_returns rfl (.bind_returns rfl (.bind_returns rfl (.returns rfl ?_)))
    have h : Opened cfg packetBuffer d none _ := .short hshort
    rwa [htx] at h
  have hlong := Nat.le_of_not_lt hlong
  have hreject : Call.Meets (· = d) (reject cfg packetBuffer) (Opened cfg packetBuffer d) E :=
    .returns (reject_run htx) (.refused hlong (Or.inl rfl))
  refine .ite (fun _ => hreject) fun hver => ?_
  refine .ite (fun _ => hreject) fun hres => ?_
  refine .ite (fun _ => hreject) fun hformat => ?_
  refine .ite (fun _ => hreject) fun hchannel => ?_
  have hvalid : HeaderValid (headerOf cfg packetBuffer) :=
    ⟨Nat.le_of_not_lt hver, of_not_not hres, of_not_not hformat, of_not_not hchannel⟩
  obtain ⟨tx1, htx1, -⟩ := arrived_tx_buffer cfg (headerOf cfg packetBuffer).sequence htx
  refine .bind_returns (checkSequence_run htx) ?_
  by_cases hpass : FirstOptionValid cfg packetBuffer
  · exact .returns ((scanOptions_run htx1 _).trans (if_pos hpass)) (.passed hlong hvalid hpass)
  · exact .returns ((scanOptions_run htx1 _).trans (if_neg hpass)) (.refused hlong (Or.inr rfl))

/-! ## A whole call -/

variable (cfg) in
/-- `refill` waits, or takes a new `tx_buffer`. -/
theorem refill_run (assembled : Bool) (d : PacketDecoder H B) :
    (refill cfg assembled).run d = .error .blocked d ∨
    ∃ b rest, d.available_buffer_pool.pool = b :: rest ∧
      (refill cfg assembled).run d =
        let d1 := cleared { d with tx_buffer := some b, available_buffer_pool := ⟨rest⟩ }
        .ok () (if assembled then d1.flushed cfg else d1) := by
  rcases _getTxBuffer_run (d := d) with ⟨-, h⟩ | ⟨b, rest, hpool, h⟩
  · left
    simp only [refill, EStateM.run_bind, h]
  · refine Or.inr ⟨b, rest, hpool, ?_⟩
    cases assembled with
    | true => simp only [refill, EStateM.run_bind, h, if_true, _flushInflight_run]
    | false =>
      simp only [refill, EStateM.run_bind, h, Bool.false_eq_true, if_false, EStateM.run_pure]

theorem finish_run (flag : Bool) :
    (finish cfg packetBuffer flag).run d =
      let d1 := { d with inflight_buffers := d.inflight_buffers ++ [packetBuffer] }
      .ok () (if flag then d1.flushed cfg else d1) := by
  cases flag with
  | true =>
    simp only [finish, EStateM.run_bind, _pushInflight, EStateM.run_modify, if_true,
      _flushInflight_run]
  | false =>
    simp only [finish, EStateM.run_bind, _pushInflight, EStateM.run_modify, Bool.false_eq_true,
      if_false, EStateM.run_pure]

variable (cfg) in
/-- The constructor waits, or takes two buffers. -/
theorem new_run (tx_buffer_pool : BufferPool (PacketBuffer B) B)
    (available : List (PacketBuffer B)) :
    (∃ d, (new : DecoderCall H B Unit).run (init cfg tx_buffer_pool ⟨available⟩) =
      .error .blocked d) ∨
    ∃ dc tx rest, available = dc :: tx :: rest ∧
      new.run (init cfg tx_buffer_pool ⟨available⟩) = .ok () { init cfg tx_buffer_pool ⟨rest⟩ with
        dcomp_buffer := some dc
        tx_buffer := some tx.clear } := by
  match available with
  | [] => exact Or.inl ⟨_, rfl⟩
  | [_] => exact Or.inl ⟨_, rfl⟩
  | dc :: tx :: rest => exact Or.inr ⟨dc, tx, rest, rfl, rfl⟩

/-- The constructor, from its second buffer on. -/
theorem constructed_eq {tx_buffer_pool : BufferPool (PacketBuffer B) B} {available : List (PacketBuffer B)}
    {dcomp_buffer : PacketBuffer B} (h : (_getTxBuffer : DecoderCall H B Unit).run
      { init cfg tx_buffer_pool ⟨available⟩ with dcomp_buffer := some dcomp_buffer } = .ok () d) :
    ∃ tx rest, available = tx :: rest ∧ d = { init cfg tx_buffer_pool ⟨rest⟩ with
      dcomp_buffer := some dcomp_buffer
      tx_buffer := some tx.clear } := by
  rcases _getTxBuffer_run (d := ({ init cfg tx_buffer_pool ⟨available⟩ with dcomp_buffer := some dcomp_buffer } :
    PacketDecoder H B)) with ⟨-, hblocked⟩ | ⟨tx, rest, hpool, hok⟩
  · cases hblocked.symm.trans h
  · exact ⟨tx, rest, hpool, (EStateM.Result.ok.inj (h.symm.trans hok)).2⟩

section
variable {I O : PacketDecoder H B → Prop} {L : Nat → Bool → PacketDecoder H B → Prop}
  {P : Bool → Nat → PacketDecoder H B → Prop} {E : Stop → PacketDecoder H B → Prop}

/-- The rule for the body of the loop over the payloads. -/
theorem decodeOption_meets {pos : Nat} {flag : Bool}
    (take : Call.Meets (L pos flag) (takeOption cfg packetBuffer pos flag)
      (fun r d => match r with
        | .refused => O d
        | .onto pos flag => L pos flag d
        | .delivered assembled pos => P assembled pos d) E)
    (refill : ∀ assembled pos, Call.Meets (P assembled pos) (refill cfg assembled)
      (fun _ => L pos (!assembled)) E) :
    Call.Meets (L pos flag) (decodeOption cfg packetBuffer pos flag)
      (fun r d => match r with
        | none => O d
        | some next => L next.1 next.2 d) E := by
  refine take.bind fun r => ?_
  cases r with
  | refused => exact fun _ hd => hd
  | onto => exact fun _ hd => hd
  | delivered assembled pos => exact (refill assembled pos).bind fun _ _ hd => hd

/-- The rule for the loop over the payloads. -/
theorem optionLoop_meets
    (option : ∀ pos flag, pos < packetBuffer.dataSize →
      Call.Meets (L pos flag) (decodeOption cfg packetBuffer pos flag)
      (fun r d => match r with
        | none => O d
        | some next => L next.1 next.2 d) E)
    (running : ∀ pos flag d, L pos flag d → E .running d) (fuel pos : Nat) (flag : Bool) :
    Call.Meets (L pos flag) (optionLoop cfg packetBuffer fuel pos flag)
      (fun r d => match r with
        | none => O d
        | some flag => ∃ pos, ¬pos < packetBuffer.dataSize ∧ L pos flag d) E := by
  induction fuel generalizing pos flag with
  | zero =>
    unfold optionLoop
    exact .ite (fun _ d hd => running pos flag d hd) fun hpos d hd => ⟨pos, hpos, hd⟩
  | succ fuel ih =>
    unfold optionLoop
    refine .ite (fun hpos => ?_) fun hpos d hd => ⟨pos, hpos, hd⟩
    refine (option pos flag hpos).bind fun r => ?_
    cases r with
    | none => exact fun _ hd => hd
    | some next => exact ih next.1 next.2

/-- **The rule for `decode`**, for `I` before and `O` after the call, `L` at every option and `P`
after the push of a frame: the parts of `decode` keep them. -/
theorem decode_meets {fuel : Nat}
    (header : Call.Meets I (decodeHeader cfg packetBuffer)
      (fun r d => match r with
        | none => O d
        | some pos => L pos true d) E)
    (take : ∀ pos flag, pos < packetBuffer.dataSize →
      Call.Meets (L pos flag) (takeOption cfg packetBuffer pos flag)
      (fun r d => match r with
        | .refused => O d
        | .onto pos flag => L pos flag d
        | .delivered assembled pos => P assembled pos d) E)
    (refill : ∀ assembled pos, Call.Meets (P assembled pos) (refill cfg assembled)
      (fun _ => L pos (!assembled)) E)
    (finish : ∀ pos flag, ¬pos < packetBuffer.dataSize →
      Call.Meets (L pos flag) (finish cfg packetBuffer flag) (fun _ => O) E)
    (running : ∀ pos flag d, L pos flag d → E .running d) :
    Call.Meets I (decode cfg fuel packetBuffer) (fun _ => O) E := by
  refine header.bind fun r => ?_
  cases r with
  | none => exact fun _ hd => hd
  | some pos =>
    refine (optionLoop_meets (fun pos flag hpos => decodeOption_meets (take pos flag hpos) refill)
      running fuel pos true).bind fun r => ?_
    cases r with
    | none => exact fun _ hd => hd
    | some flag =>
      rintro d ⟨pos, hpos, hd⟩
      exact finish pos flag hpos d hd

end

/-! ## Runs -/

variable (cfg)

/-- A new decoder whose constructor did not have to wait. -/
def Starts (available : List (PacketBuffer B)) (d : PacketDecoder H B) : Prop :=
  new.run (init cfg ⟨[]⟩ ⟨available⟩) = .ok () d

/-- A call of `decode` that returns. -/
def Decodes (d : PacketDecoder H B) (packetBuffer : PacketBuffer B) (d' : PacketDecoder H B) : Prop :=
  ∃ fuel, (decode cfg fuel packetBuffer).run d = .ok () d'

variable {cfg}

/-- A new decoder holds two buffers, and nothing has happened. -/
theorem Starts.eq {available : List (PacketBuffer B)} (h : Starts cfg available d) :
    ∃ dc tx rest, available = dc :: tx :: rest ∧ d = { init cfg ⟨[]⟩ ⟨rest⟩ with
      dcomp_buffer := some dc
      tx_buffer := some tx.clear } := by
  rcases new_run cfg ⟨[]⟩ available with ⟨d', hb⟩ | ⟨dc, tx, rest, hpool, hrun⟩
  · rw [Starts, hb] at h
    cases h
  · rw [Starts, hrun] at h
    exact ⟨dc, tx, rest, hpool, (EStateM.Result.ok.inj h).2.symm⟩

/-- A list of calls that return is a path. -/
theorem path_of_runAll {fuel : Nat} {pkts : List (PacketBuffer B)} {d' : PacketDecoder H B}
    (h : (Call.runAll (decode cfg fuel) pkts).run d = .ok () d') : StepPath (Decodes cfg) d pkts d' := by
  induction pkts generalizing d with
  | nil =>
    obtain ⟨-, rfl⟩ := EStateM.Result.ok.inj h
    exact .nil _
  | cons packetBuffer pkts ih =>
    obtain ⟨_, d1, h1, h2⟩ := Call.run_bind_eq_ok.mp h
    exact .cons ⟨fuel, h1⟩ (ih h2)

/-- A run that returns, from the constructor on. -/
theorem path_of_decoderRun {T : Tunnel H} {heap : Nat → UInt8} {fuel : Nat}
    {available arrivals : List (PacketBuffer T.B)} {d : PacketDecoder H T.B}
    (h : T.decoderRun heap fuel available arrivals = .ok () d) :
    ∃ d0, Starts (T.decoder heap) available d0 ∧ StepPath (Decodes (T.decoder heap)) d0 arrivals d := by
  obtain ⟨_, d0, h1, h2⟩ := Call.run_bind_eq_ok.mp h
  exact ⟨d0, h1, path_of_runAll h2⟩

/-- A run over one datagram. -/
theorem decode_of_decoderRun {T : Tunnel H} {heap : Nat → UInt8} {fuel : Nat}
    {available : List (PacketBuffer T.B)} {packetBuffer : PacketBuffer T.B} {d : PacketDecoder H T.B}
    (h : T.decoderRun heap fuel available [packetBuffer] = .ok () d) :
    ∃ d0, Starts (T.decoder heap) available d0 ∧
      (decode (T.decoder heap) fuel packetBuffer).run d0 = .ok () d := by
  obtain ⟨_, d0, h1, h2⟩ := Call.run_bind_eq_ok.mp h
  obtain ⟨_, d1, hdecode, hnil⟩ := Call.run_bind_eq_ok.mp h2
  obtain ⟨-, rfl⟩ := EStateM.Result.ok.inj hnil
  exact ⟨d0, h1, hdecode⟩

/-- **The rule for one call of a run**: what `decode` leaves when it returns. -/
theorem Decodes.of_meets {I O : PacketDecoder H B → Prop} {E : Stop → PacketDecoder H B → Prop}
    {d' : PacketDecoder H B}
    (keep : ∀ fuel, Call.Meets I (decode cfg fuel packetBuffer) (fun _ => O) E)
    (h : Decodes cfg d packetBuffer d') (hd : I d) : O d' := by
  obtain ⟨fuel, hrun⟩ := h
  exact (keep fuel).ok hd hrun

end PacketDecoder
end SuperEthd
