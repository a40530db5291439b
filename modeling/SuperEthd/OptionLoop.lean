import SuperEthd.SizeDiscipline

/-! # The loop over the payloads

The positions that `decode` comes to in a datagram, and which of the options there it refuses:
those that fail one of its checks (`takeOption_passes`). -/
namespace SuperEthd
open PacketHeaderOptionType PacketHeaderOptionFormatType

namespace PacketDecoder
variable {H : Type} {B : Nat} (cfg : DecoderConfig H)

/-- **`decode` comes to a position**: the decoder `d`, given the datagram, is before the loop's test of
the position and the flag, in the state given. -/
inductive Reaches (packetBuffer : PacketBuffer B) (d : PacketDecoder H B) :
    Nat → Bool → PacketDecoder H B → Prop
  | first {pos d1} : (decodeHeader cfg packetBuffer).run d = .ok (some pos) d1 →
      Reaches packetBuffer d pos true d1
  | next {pos flag d1 pos' flag' d2} : Reaches packetBuffer d pos flag d1 →
      pos < packetBuffer.dataSize →
      (decodeOption cfg packetBuffer pos flag).run d1 = .ok (some (pos', flag')) d2 →
      Reaches packetBuffer d pos' flag' d2

/-- The size of what the stream for `format` makes of `input`, negative for an error. -/
def decompressedSize (d : PacketDecoder H B) (format : PacketHeaderOptionFormatType)
    (input : List UInt8) : Int :=
  if format = COMPRESSED_LZ4 then (cfg.libs.lz4.decompress d.compressorLZ4 input B).result
  else (cfg.libs.zstd.decompress d.compressorZSTD input B).result

/-- The size of the frame that `payload` is in the format of the option. -/
def frameSize (d : PacketDecoder H B) (option : PacketHeaderOption) (payload : List UInt8) : Int :=
  if option.formatIsCompressed then decompressedSize cfg d option.format payload
  else payload.length

/-- The position of the payload of the option at `pos`. -/
def payloadPos (pos : Nat) : Nat := (pos + PacketHeaderOption.size) % 65536

/-- The data in `tx_buffer`. -/
def assembled (d : PacketDecoder H B) : List UInt8 := d.tx_buffer.elim [] PacketBuffer.data

/-- The checks of an option that carries a whole frame. -/
structure WholePasses (packetBuffer : PacketBuffer B) (option : PacketHeaderOption) (pos : Nat)
    (d : PacketDecoder H B) : Prop where
  part : option.part = 0
  fits : payloadPos pos + option.payload_length ≤ packetBuffer.dataSize
  size : frameSize cfg (d.begun cfg option) option
    (packetBuffer.slice (payloadPos pos) option.payload_length) = option.packet_size

/-- The checks of an option that carries a part which can be used. -/
structure PartPasses (packetBuffer : PacketBuffer B) (option : PacketHeaderOption) (pos : Nat)
    (d : PacketDecoder H B) : Prop where
  fits : payloadPos pos + option.payload_length ≤ packetBuffer.dataSize
  room : d.assembled.length + option.payload_length ≤ B
  plain : option.formatIsCompressed = false →
    d.assembled.length + option.payload_length ≤ option.packet_size
  size : option.typeIsComplete = true → frameSize cfg d option
    (d.assembled ++ packetBuffer.slice (payloadPos pos) option.payload_length) = option.packet_size

/-- **The option passes the checks** that `decode` makes of it in the state given.  Nothing is checked
of a type that is not handled, and of a part that cannot be used only the size of its frame. -/
def Passes (packetBuffer : PacketBuffer B) (option : PacketHeaderOption) (pos : Nat)
    (d : PacketDecoder H B) : Prop :=
  option.packet_size ≤ cfg.l2mtu ∧
    (option.type = COMPLETE_PACKET → WholePasses cfg packetBuffer option pos d) ∧
    (option.type ≠ COMPLETE_PACKET → option.typeIsPartial = true → unusable d option = false →
      PartPasses cfg packetBuffer option pos d)

/-- From `d` to `d'` a frame was delivered, or bytes were added to the reassembly state. -/
def ActedOn (d d' : PacketDecoder H B) : Prop :=
  d.tx_buffer_pool.pool.length < d'.tx_buffer_pool.pool.length ∨
    d.accepted.length < d'.accepted.length

variable {cfg} {d d' : PacketDecoder H B} {packetBuffer : PacketBuffer B} {pos : Nat} {flag : Bool}
  {option : PacketHeaderOption} {tx dc : PacketBuffer B}

/-- The sizes hold at every position that is reached. -/
theorem Reaches.sized (hlibs : LibsBounded cfg B) (h : Reaches cfg packetBuffer d pos flag d')
    (hd : Sized cfg d) : Sized cfg d' := by
  induction h with
  | first hrun => exact (decodeHeader_sized (E := fun _ _ => True) cfg packetBuffer).ok hd hrun
  | next _ _ hrun ih => exact (decodeOption_sized packetBuffer hlibs _ _).ok ih hrun

/-! ## The first option -/

/-- The reassembly state is clear. -/
structure Clear (d : PacketDecoder H B) : Prop where
  last_part : d.last_part = 0
  last_format : d.last_format = NONE
  last_orig_packet_size : d.last_orig_packet_size = 0
  tx_buffer : ∀ tx ∈ d.tx_buffer, tx.data = []

theorem refusing_clear : Clear (d.refusing cfg packetBuffer) := by
  refine ⟨rfl, rfl, rfl, fun tx htx => ?_⟩
  obtain ⟨tx', -, rfl⟩ := Option.map_eq_some_iff.mp (Option.mem_def.mp htx)
  exact PacketBuffer.data_clear tx'

/-! **The header** of a datagram, up to the loop over the payloads. -/

theorem decodeHeader_short (htx : d.tx_buffer = some tx)
    (hshort : packetBuffer.dataSize < PacketHeader.size) :
    (decodeHeader cfg packetBuffer).run d = .ok none { d with
      available_buffer_pool := ⟨d.available_buffer_pool.pool ++ [packetBuffer]⟩
      tx_buffer := some tx.clear } := by
  simp only [decodeHeader, if_pos hshort, EStateM.run_bind, EStateM.run_get,
    BufferPool.push_packetBuffer, Call.run_ofExcept_ok, htx, deref_some, EStateM.run_set,
    EStateM.run_pure]

theorem decodeHeader_invalid (htx : d.tx_buffer = some tx)
    (hlong : PacketHeader.size ≤ packetBuffer.dataSize)
    (hinvalid : ¬HeaderValid (headerOf cfg packetBuffer)) :
    (decodeHeader cfg packetBuffer).run d = .ok none (d.refusing cfg packetBuffer) := by
  have hreject : ∀ c : Prop, [Decidable c] → ∀ rest : DecoderCall H B (Option Nat),
      (¬c → rest.run d = .ok none (d.refusing cfg packetBuffer)) →
      (if c then reject cfg packetBuffer else rest).run d =
        .ok none (d.refusing cfg packetBuffer) := by
    intro c _ rest hrest
    split
    · exact reject_run htx
    · exact hrest ‹_›
  unfold decodeHeader
  rw [if_neg (Nat.not_lt_of_ge hlong)]
  refine hreject _ _ fun hver => hreject _ _ fun hres => hreject _ _ fun hformat =>
    hreject _ _ fun hchannel => absurd ?_ hinvalid
  exact ⟨Nat.le_of_not_lt hver, of_not_not hres, of_not_not hformat, of_not_not hchannel⟩

theorem decodeHeader_valid (htx : d.tx_buffer = some tx)
    (hlong : PacketHeader.size ≤ packetBuffer.dataSize)
    (hvalid : HeaderValid (headerOf cfg packetBuffer)) :
    (decodeHeader cfg packetBuffer).run d =
      (scanOptions cfg packetBuffer (headerOf cfg packetBuffer).opt_len
        (headerOf cfg packetBuffer).opt_len 0 PacketHeader.size 0).run
          (d.arrived cfg (headerOf cfg packetBuffer).sequence) := by
  obtain ⟨hver, hres, hformat, hchannel⟩ := hvalid
  unfold decodeHeader
  rw [if_neg (Nat.not_lt_of_ge hlong)]
  simp only [gt_iff_lt, if_neg (Nat.not_lt_of_ge hver), ne_eq, hres, hformat, hchannel, not_true,
    if_false]
  exact Call.run_bind_of_ok (checkSequence_run htx)

theorem decodeHeader_passed (htx : d.tx_buffer = some tx)
    (hlong : PacketHeader.size ≤ packetBuffer.dataSize)
    (hvalid : HeaderValid (headerOf cfg packetBuffer)) (hfirst : FirstOptionValid cfg packetBuffer) :
    (decodeHeader cfg packetBuffer).run d =
      .ok (some PacketHeader.size) (d.arrived cfg (headerOf cfg packetBuffer).sequence) := by
  obtain ⟨tx1, htx1, -⟩ := arrived_tx_buffer cfg (headerOf cfg packetBuffer).sequence htx
  rw [decodeHeader_valid htx hlong hvalid, scanOptions_run htx1, if_pos]
  exact hfirst

theorem decodeHeader_first_invalid (htx : d.tx_buffer = some tx)
    (hlong : PacketHeader.size ≤ packetBuffer.dataSize)
    (hvalid : HeaderValid (headerOf cfg packetBuffer)) (hfirst : ¬FirstOptionValid cfg packetBuffer) :
    (decodeHeader cfg packetBuffer).run d =
      .ok none ((d.arrived cfg (headerOf cfg packetBuffer).sequence).refusing cfg packetBuffer) := by
  obtain ⟨tx1, htx1, -⟩ := arrived_tx_buffer cfg (headerOf cfg packetBuffer).sequence htx
  rw [decodeHeader_valid htx hlong hvalid, scanOptions_run htx1, if_neg]
  exact hfirst

/-- A datagram whose header and first option are valid is read from that option on. -/
theorem Reaches.of_valid (htx : d.tx_buffer = some tx)
    (hlong : PacketHeader.size ≤ packetBuffer.dataSize)
    (hvalid : HeaderValid (headerOf cfg packetBuffer)) (hfirst : FirstOptionValid cfg packetBuffer) :
    Reaches cfg packetBuffer d PacketHeader.size true
      (d.arrived cfg (headerOf cfg packetBuffer).sequence) :=
  .first (decodeHeader_passed htx hlong hvalid hfirst)

/-- **The header lets a datagram pass** whose first option was checked; a refusal leaves the reassembly
state clear, unless the datagram is shorter than the header. -/
theorem decodeHeader_checks {E : Stop → PacketDecoder H B → Prop} (htx : d.tx_buffer = some tx) :
    Call.Meets (· = d) (decodeHeader cfg packetBuffer)
      (fun r d1 => match r with
        | none => PacketHeader.size ≤ packetBuffer.dataSize → Clear d1
        | some pos => pos = PacketHeader.size ∧ FirstOptionValid cfg packetBuffer) E := by
  rintro d rfl
  by_cases hshort : packetBuffer.dataSize < PacketHeader.size
  · rw [decodeHeader_short htx hshort]
    exact fun hlong => absurd hlong (Nat.not_le_of_gt hshort)
  have hlong := Nat.le_of_not_lt hshort
  by_cases hvalid : HeaderValid (headerOf cfg packetBuffer)
  · by_cases hfirst : FirstOptionValid cfg packetBuffer
    · rw [decodeHeader_passed htx hlong hvalid hfirst]
      exact ⟨rfl, hfirst⟩
    · rw [decodeHeader_first_invalid htx hlong hvalid hfirst]
      exact fun _ => refusing_clear
  · rw [decodeHeader_invalid htx hlong hvalid]
    exact fun _ => refusing_clear

/-! ## Which options are refused

That none of these calls throws is known (`takeOption_sized`), so nothing is said of it here. -/

/-- `decompress` gives the size of what the stream makes of its input. -/
theorem decompress_result (format : PacketHeaderOptionFormatType) (input : List UInt8)
    (output : PacketBuffer B) :
    Call.Meets (· = d) (decompress cfg packetBuffer format input output)
      (fun r d1 => r.1 = decompressedSize cfg d format input ∧ d1.tx_buffer = d.tx_buffer)
      fun _ _ => True := by
  refine .bind_returns (t := d) rfl (.ite (fun hf => ?_) fun hf => ?_)
  · refine .bind_ofExcept (fun out _ => .bind_set (.returns rfl ⟨?_, rfl⟩)) fun _ _ _ _ => trivial
    rw [decompressedSize, if_pos hf, PacketBuffer.getBufferSize_eq]
  · refine .bind_ofExcept (fun out _ => .bind_set (.returns rfl ⟨?_, rfl⟩)) fun _ _ _ _ => trivial
    rw [decompressedSize, if_neg hf, PacketBuffer.getBufferSize_eq]

/-- The record was tried: `tx_buffer` has the size given, or this is the error it could not be
decompressed for. -/
def FilledTo (size : Int) (filled : Bool) (d : PacketDecoder H B) : Prop :=
  ∃ tx, d.tx_buffer = some tx ∧ if filled then (tx.dataSize : Int) = size else size < 0

theorem toNat_of_setDataSize {size : Int} {b b' : PacketBuffer B} (hsize : ¬size < 0)
    (h : b.setDataSize size.toNat = .ok b') : (b'.dataSize : Int) = size := by
  unfold PacketBuffer.setDataSize at h
  split at h
  · rw [← Except.ok.inj h]
    exact Int.toNat_of_nonneg (Int.not_lt.mp hsize)
  · cases h

theorem fillComplete_filled {packet_pos : Nat} (htx : d.tx_buffer = some tx)
    (h0 : tx.dataSize = 0) :
    Call.Meets (· = d) (fillComplete cfg packetBuffer option packet_pos)
      (FilledTo (frameSize cfg d option (packetBuffer.slice packet_pos option.payload_length)))
      fun _ _ => True := by
  refine .bind_returns (t := d) rfl ?_
  rw [htx]
  refine .bind_returns (deref_some tx d) (.ite (fun hc => ?_) fun hc => ?_)
  · rw [frameSize, if_pos hc]
    refine (decompress_result option.format _ tx).bind fun r d1 h => ?_
    obtain ⟨hr, -⟩ := h
    simp only [EStateM.run_bind, EStateM.run_modify]
    by_cases hn : r.1 < 0
    · simp only [if_pos hn, EStateM.run_pure]
      exact ⟨r.2, rfl, hr ▸ hn⟩
    · simp only [if_neg hn, EStateM.run_bind]
      cases hset : r.2.setDataSize r.1.toNat with
      | error => exact trivial
      | ok tx1 => exact ⟨tx1, rfl, (toNat_of_setDataSize hn hset).trans hr⟩
  · rw [frameSize, if_neg hc]
    refine .bind_ofExcept (fun tx1 happ => ?_) fun _ _ _ _ => trivial
    refine .bind_returns rfl (.returns rfl ⟨tx1, rfl, ?_⟩)
    unfold PacketBuffer.append at happ
    split at happ
    · cases happ
    · rw [← Except.ok.inj happ, if_pos rfl]
      simp only [h0, Nat.zero_add]

theorem finishPartial_filled (htx : d.tx_buffer = some tx) (hdc : d.dcomp_buffer = some dc) :
    Call.Meets (· = d) (finishPartial cfg packetBuffer option)
      (FilledTo (frameSize cfg d option tx.data)) fun _ _ => True := by
  refine .ite (fun hc => ?_) fun hc => ?_
  · rw [frameSize, if_pos hc]
    refine .bind_returns (t := d) rfl ?_
    rw [htx, hdc]
    refine .bind_returns (deref_some tx d) (.bind_returns (deref_some dc d) ?_)
    refine (decompress_result option.format _ dc).bind fun r d1 h => ?_
    obtain ⟨hr, hd1⟩ := h
    simp only [EStateM.run_bind, EStateM.run_modify]
    by_cases hn : r.1 < 0
    · simp only [if_pos hn, EStateM.run_pure]
      exact ⟨tx, hd1.trans htx, hr ▸ hn⟩
    · simp only [if_neg hn, EStateM.run_bind]
      cases hset : r.2.setDataSize r.1.toNat with
      | error => exact trivial
      | ok dc1 => exact ⟨dc1, rfl, (toNat_of_setDataSize hn hset).trans hr⟩
  · rw [frameSize, if_neg hc]
    exact .returns rfl ⟨tx, htx, congrArg Nat.cast tx.data_length.symm⟩

variable (cfg packetBuffer option) in
/-- **A record is delivered if it has the size its option says**, else the packet is refused. -/
theorem deliver_filled {size : Int} {filled whole : Bool} (hfilled : FilledTo size filled d) :
    Call.Meets (· = d)
      (if !filled then refuse cfg packetBuffer
      else do
        if !(← deliver packetBuffer option) then refuse cfg packetBuffer
        else return .delivered whole pos)
      (fun r _ => r = .refused ↔ size ≠ option.packet_size) fun _ _ => True := by
  obtain ⟨tx, htx, hsize⟩ := hfilled
  cases filled with
  | false =>
    have hneg : size < 0 := hsize
    exact .returns (refuse_run htx) ⟨fun _ => by omega, fun _ => rfl⟩
  | true =>
    have hsize : (tx.dataSize : Int) = size := hsize
    by_cases hsz : tx.dataSize = option.packet_size
    · refine .bind_returns ((deliver_run htx).trans (if_pos hsz)) (.returns rfl ?_)
      exact ⟨fun h => Progress.noConfusion h,
        fun h => absurd (hsize.symm.trans (congrArg Nat.cast hsz)) h⟩
    · refine .bind_returns ((deliver_run htx).trans (if_neg hsz)) (.returns (refuse_run htx) ?_)
      exact ⟨fun _ => by omega, fun _ => rfl⟩

/-- **An option with a whole frame** is refused when it fails a check. -/
theorem completeOption_passes (htype : option.type = COMPLETE_PACKET) (hok : SizesOk cfg d)
    (htx : d.tx_buffer = some tx) :
    Call.Meets (· = d) (completeOption cfg packetBuffer option pos)
      (fun r _ => r = .refused ↔ ¬WholePasses cfg packetBuffer option pos d) fun _ _ => True := by
  obtain ⟨tx1, htx1, -⟩ := begun_tx_buffer cfg option htx
  have h0 := begun_last_part cfg (d := d) htype
  suffices h : Call.Meets (· = d.begun cfg option) (completeOption cfg packetBuffer option pos)
      (fun r _ => r = .refused ↔ ¬WholePasses cfg packetBuffer option pos d) fun _ _ => True by
    rintro _ rfl
    rw [completeOption_run_begun htype htx]
    exact h _ rfl
  refine .bind_returns (t := d.begun cfg option) rfl ?_
  rw [if_neg (not_not.mpr h0)]
  refine .ite (fun hpart => .returns (refuse_run htx1) ⟨fun _ h => hpart h.part, fun _ => rfl⟩)
    fun hpart => ?_
  refine .ite (fun hfit => .returns (refuse_run htx1)
    ⟨fun _ h => absurd h.fits (Nat.not_le_of_gt hfit), fun _ => rfl⟩) fun hfit => ?_
  refine (fillComplete_filled htx1 (hok.begun.empty tx1 h0 htx1)).bind fun filled d1 hfilled => ?_
  refine (deliver_filled cfg packetBuffer option hfilled).mono (fun _ h => h) (fun r _ h => ?_)
    (fun _ _ h => h) d1 rfl
  exact h.trans (not_congr ⟨fun hsize => ⟨of_not_not hpart, Nat.le_of_not_lt hfit, hsize⟩,
    fun h => h.size⟩)

/-- **An option with a part that can be used** is refused when it fails a check. -/
theorem partialOption_passes (htx : d.tx_buffer = some tx) (hdc : d.dcomp_buffer = some dc) :
    Call.Meets (· = d) (partialOption cfg packetBuffer option pos)
      (fun r _ => r = .refused ↔
        unusable d option = false ∧ ¬PartPasses cfg packetBuffer option pos d) fun _ _ => True := by
  have hlen : d.assembled.length = tx.dataSize := by
    rw [assembled, htx, Option.elim_some, PacketBuffer.data_length]
  refine .bind_returns (t := d) rfl (.ite (fun hun => ?_) fun hun => ?_)
  · exact .bind_returns (clearAndFlush_run htx) (.returns rfl
      ⟨fun h => Progress.noConfusion h, fun h => absurd (hun.symm.trans h.1) Bool.noConfusion⟩)
  rw [Bool.not_eq_true] at hun
  refine .ite (fun hfit => .returns (refuse_run htx)
    ⟨fun _ => ⟨hun, fun h => absurd h.fits (Nat.not_le_of_gt hfit)⟩, fun _ => rfl⟩) fun hfit => ?_
  rw [htx]
  refine .bind_returns (deref_some tx d) ?_
  rw [PacketBuffer.getBufferSize_eq]
  refine .ite (fun hroom => .returns (refuse_run htx)
    ⟨fun _ => ⟨hun, fun h => absurd (hlen ▸ h.room) (Nat.not_le_of_gt hroom)⟩, fun _ => rfl⟩)
    fun hroom => ?_
  refine .ite (fun hsmall => .returns (refuse_run htx) ⟨fun _ => ⟨hun, fun h => ?_⟩, fun _ => rfl⟩)
    fun hsmall => ?_
  · have := h.plain (by simpa using hsmall.1)
    omega
  have hslice := PacketBuffer.slice_length (Nat.le_of_not_lt hfit)
  obtain ⟨tx1, happ, hdata, -, -⟩ := PacketBuffer.append_ok tx
    (packetBuffer.slice ((pos + PacketHeaderOption.size) % 65536) option.payload_length)
    (by omega)
  have hplain : option.formatIsCompressed = false →
      d.assembled.length + option.payload_length ≤ option.packet_size := fun hc => by
    rw [hc] at hsmall
    simp only [Bool.not_false, true_and, not_lt] at hsmall
    omega
  have hpasses : (option.typeIsComplete = true → frameSize cfg d option
      (d.assembled ++ packetBuffer.slice (payloadPos pos) option.payload_length) =
        option.packet_size) → PartPasses cfg packetBuffer option pos d := fun hsize =>
    ⟨Nat.le_of_not_lt hfit, hlen ▸ Nat.le_of_not_lt hroom, hplain, hsize⟩
  simp only [happ]
  refine .bind_returns rfl (.bind_returns rfl (.ite (fun hcomplete => ?_) fun hcomplete => ?_))
  · refine (finishPartial_filled (d := { d with tx_buffer := some tx1, accepted := _ }) rfl hdc).bind
      fun filled d1 hfilled => ?_
    refine (deliver_filled cfg packetBuffer option hfilled).mono (fun _ h => h) (fun r _ h => ?_)
      (fun _ _ h => h) d1 rfl
    have hframe : d.assembled ++ packetBuffer.slice (payloadPos pos) option.payload_length =
        tx1.data := by
      rw [assembled, htx, Option.elim_some]
      exact hdata.symm
    rw [h, and_iff_right hun, not_iff_not]
    exact ⟨fun hsize => hpasses fun _ => hframe ▸ hsize, fun hp => hframe ▸ hp.size hcomplete⟩
  · exact .bind_returns rfl (.returns rfl ⟨fun h => Progress.noConfusion h, fun h =>
      absurd (hpasses fun hc => absurd hc hcomplete) h.2⟩)

/-- **An option is refused exactly when it fails a check.** -/
theorem takeOption_passes (hok : SizesOk cfg d) (htx : d.tx_buffer = some tx)
    (hdc : d.dcomp_buffer = some dc) :
    Call.Meets (· = d) (takeOption cfg packetBuffer pos flag)
      (fun r _ => r = .refused ↔
        ¬Passes cfg packetBuffer (optionAt cfg packetBuffer pos) pos d) fun _ _ => True := by
  refine .ite (fun hbig => ?_) fun hsize => ?_
  · exact .returns (refuse_run htx)
      ⟨fun _ h => absurd h.1 (Nat.not_le_of_gt hbig), fun _ => rfl⟩
  have hsize := Nat.le_of_not_lt hsize
  refine .ite (fun htype => ?_) fun htype => ?_
  · refine (completeOption_passes htype hok htx).mono (fun _ h => h) (fun r _ h => ?_)
      fun _ _ h => h
    exact h.trans (not_congr ⟨fun hw => ⟨hsize, fun _ => hw, fun hne => absurd htype hne⟩,
      fun hp => hp.2.1 htype⟩)
  refine .ite (fun hpart => ?_) fun hpart => ?_
  · refine (partialOption_passes htx hdc).mono (fun _ h => h) (fun r _ h => ?_) fun _ _ h => h
    rw [h, ← Classical.not_imp, not_iff_not]
    exact ⟨fun hp => ⟨hsize, fun h => absurd h htype, fun _ _ => hp⟩,
      fun hp => hp.2.2 htype hpart⟩
  · exact .returns rfl ⟨fun h => Progress.noConfusion h, fun h => absurd
      ⟨hsize, fun h => absurd h htype, fun _ h => absurd h hpart⟩ h⟩

/-- `decode` is done with the packet when an option is refused. -/
theorem decodeOption_eq_none :
    (decodeOption cfg packetBuffer pos flag).run d = .ok none d' ↔
      (takeOption cfg packetBuffer pos flag).run d = .ok .refused d' := by
  constructor
  · intro hrun
    obtain ⟨r, d1, htake, hrest⟩ := Call.run_bind_eq_ok.mp hrun
    cases r with
    | refused =>
      obtain ⟨-, rfl⟩ := EStateM.Result.ok.inj hrest
      exact htake
    | onto => cases hrest
    | delivered =>
      obtain ⟨_, d2, -, hpure⟩ := Call.run_bind_eq_ok.mp hrest
      cases hpure
  · exact fun htake => Call.run_bind_of_ok htake

/-- The body of the loop does not throw, and refuses what fails a check. -/
theorem Sized.takeOption (h : Sized cfg d) (hlibs : LibsBounded cfg B) (packetBuffer : PacketBuffer B)
    (pos : Nat) (flag : Bool) :
    ∃ r d', (takeOption cfg packetBuffer pos flag).run d = .ok r d' ∧
      (r = .refused ↔ ¬Passes cfg packetBuffer (optionAt cfg packetBuffer pos) pos d) := by
  obtain ⟨tx, htx, -⟩ := h.tx_buffer
  obtain ⟨dc, hdc⟩ := Option.isSome_iff_exists.mp h.dcomp_buffer
  rcases (takeOption_sized (E := fun _ _ => False) packetBuffer hlibs pos flag).of_run h with
    ⟨r, d', hrun, -⟩ | ⟨x, d', -, hfalse⟩
  · exact ⟨r, d', hrun, (takeOption_passes (h.sizesOk hlibs) htx hdc).ok rfl hrun⟩
  · exact hfalse.elim

variable (cfg option) in
theorem begun_tx_buffer_pool : (d.begun cfg option).tx_buffer_pool = d.tx_buffer_pool := by
  unfold PacketDecoder.begun
  split <;> rfl

/-- A refusal acts on nothing, and leaves the reassembly state clear. -/
theorem Sized.refused (h : Sized cfg d)
    (hrun : (PacketDecoder.takeOption cfg packetBuffer pos flag).run d = .ok .refused d') :
    ¬ActedOn d d' ∧ Clear d' := by
  obtain ⟨tx, htx, -⟩ := h.tx_buffer
  obtain ⟨dc, hdc⟩ := Option.isSome_iff_exists.mp h.dcomp_buffer
  cases (takeOption_meets htx hdc).ok rfl hrun with
  | @refused d1 htried =>
    refine ⟨?_, refusing_clear⟩
    rintro (hpool | hacc)
    · have hpool : d.tx_buffer_pool.pool.length < d1.tx_buffer_pool.pool.length := hpool
      rw [htried.tx_buffer_pool, begun_tx_buffer_pool] at hpool
      exact Nat.lt_irrefl _ hpool
    · exact Nat.not_lt_zero _ hacc

/-- **An option that is acted on** passed its checks, and carries a frame or a part that can be used. -/
theorem Sized.acted {r : Progress} (h : Sized cfg d) (hlibs : LibsBounded cfg B)
    (hrun : (PacketDecoder.takeOption cfg packetBuffer pos flag).run d = .ok r d')
    (hacted : ActedOn d d') :
    Passes cfg packetBuffer (optionAt cfg packetBuffer pos) pos d ∧
      Used d (optionAt cfg packetBuffer pos) := by
  constructor
  · obtain ⟨r1, d1, hrun1, hiff⟩ := h.takeOption hlibs packetBuffer pos flag
    rw [hrun] at hrun1
    obtain ⟨rfl, rfl⟩ := EStateM.Result.ok.inj hrun1
    by_contra hfails
    rw [hiff.mpr hfails] at hrun
    exact (h.refused hrun).1 hacted
  · obtain ⟨tx, htx, -⟩ := h.tx_buffer
    obtain ⟨dc, hdc⟩ := Option.isSome_iff_exists.mp h.dcomp_buffer
    cases (takeOption_meets htx hdc).ok rfl hrun with
    | refused => exact absurd hacted (h.refused hrun).1
    | ignored => exact absurd hacted fun h => h.elim (Nat.lt_irrefl _) (Nat.lt_irrefl _)
    | skipped => exact absurd hacted fun h => h.elim (Nat.lt_irrefl _) (Nat.not_lt_zero _)
    | kept _ hpart _ hun => exact Or.inr ⟨hpart, hun⟩
    | delivered _ hused => exact hused

/-- The payload of an option that is used and passes its checks is inside the data. -/
theorem Passes.fits (h : Passes cfg packetBuffer option pos d) (hused : Used d option) :
    payloadPos pos + option.payload_length ≤ packetBuffer.dataSize := by
  by_cases htype : option.type = COMPLETE_PACKET
  · exact (h.2.1 htype).fits
  · obtain ⟨hpart, hun⟩ := hused.resolve_left htype
    exact (h.2.2 htype hpart hun).fits

end PacketDecoder
end SuperEthd
