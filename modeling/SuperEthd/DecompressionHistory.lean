import SuperEthd.DecoderSteps

/-! # Who owns the decompression history

LZ4's stream decoder reads the blocks it decoded before, at the addresses where it decoded
them, until it is reset.  The decoder decodes into `tx_buffer` and hands that buffer on at once,
so other threads may use it again while the stream still refers to it.

The decoder thread, the TAP writer and the other threads are a transition system: the decoder
takes one option at a time, and between any two of its steps the others take frames from its TX
pool, give buffers back, take free ones and write to those they hold.  A step of the decoder
works on buffers it holds, so what the others do meanwhile can be put before or after it. -/
namespace SuperEthd
open PacketHeaderOptionType PacketHeaderOptionFormatType PacketDecoder

variable {H : Type} {B : Nat}

/-- **A call of LZ4's `decompress` is safe**: every block it may read is in a buffer that the decoder
holds, as it was decoded. -/
def Lz4Call.Safe (call : Lz4Call B) : Prop :=
  ∀ block ∈ call.blocks, ∃ b ∈ call.held, b.id = block.buffer ∧
    b.content.take block.bytes.length = block.bytes

/-! ## The threads -/

/-- Where the decoder thread is in `decode`. -/
inductive Phase (B : Nat)
  | idle
  /-- before the option at `pos` -/
  | options (packetBuffer : PacketBuffer B) (pos : Nat) (flush_inflight : Bool)
  /-- behind the push of a frame -/
  | refill (packetBuffer : PacketBuffer B) (assembled : Bool) (pos : Nat)

/-- The decoder, where its thread is, and the buffers the other threads hold. -/
structure Threads (H : Type) (B : Nat) where
  decoder : PacketDecoder H B
  phase : Phase B
  others : List (PacketBuffer B)

/-- What happens in a step. -/
inductive Event (B : Nat)
  /-- a datagram is handed to `decode` -/
  | arrives (packetBuffer : PacketBuffer B)
  /-- `decode` goes on -/
  | decodes
  /-- another thread does something -/
  | others

/-- A step of one of the threads. -/
inductive Threads.Step (cfg : DecoderConfig H) : Threads H B → Event B → Threads H B → Prop
  | refused {d d' l r packetBuffer} : (decodeHeader cfg packetBuffer).run d = .ok none d' →
      Step cfg ⟨d, .idle, l ++ packetBuffer :: r⟩ (.arrives packetBuffer) ⟨d', .idle, l ++ r⟩
  | opened {d d' l r packetBuffer pos} : (decodeHeader cfg packetBuffer).run d = .ok (some pos) d' →
      Step cfg ⟨d, .idle, l ++ packetBuffer :: r⟩ (.arrives packetBuffer)
        ⟨d', .options packetBuffer pos true, l ++ r⟩
  | optionRefused {d d' packetBuffer pos flag others} : pos < packetBuffer.dataSize →
      (takeOption cfg packetBuffer pos flag).run d = .ok .refused d' →
      Step cfg ⟨d, .options packetBuffer pos flag, others⟩ .decodes ⟨d', .idle, others⟩
  | option {d d' packetBuffer pos flag pos' flag' others} : pos < packetBuffer.dataSize →
      (takeOption cfg packetBuffer pos flag).run d = .ok (.onto pos' flag') d' →
      Step cfg ⟨d, .options packetBuffer pos flag, others⟩ .decodes
        ⟨d', .options packetBuffer pos' flag', others⟩
  | delivered {d d' packetBuffer pos flag assembled pos' others} : pos < packetBuffer.dataSize →
      (takeOption cfg packetBuffer pos flag).run d = .ok (.delivered assembled pos') d' →
      Step cfg ⟨d, .options packetBuffer pos flag, others⟩ .decodes
        ⟨d', .refill packetBuffer assembled pos', others⟩
  | refilled {d d' packetBuffer assembled pos others} : (refill cfg assembled).run d = .ok () d' →
      Step cfg ⟨d, .refill packetBuffer assembled pos, others⟩ .decodes
        ⟨d', .options packetBuffer pos (!assembled), others⟩
  | finished {d d' packetBuffer pos flag others} : ¬pos < packetBuffer.dataSize →
      (finish cfg packetBuffer flag).run d = .ok () d' →
      Step cfg ⟨d, .options packetBuffer pos flag, others⟩ .decodes ⟨d', .idle, others⟩
  /-- the TAP writer takes a frame -/
  | take {d phase others b rest} : d.tx_buffer_pool.pool = b :: rest →
      Step cfg ⟨d, phase, others⟩ .others
        ⟨{ d with tx_buffer_pool := ⟨rest⟩ }, phase, others ++ [b]⟩
  /-- a buffer is given back -/
  | giveBack {d phase l r b} : Step cfg ⟨d, phase, l ++ b :: r⟩ .others
      ⟨{ d with available_buffer_pool := ⟨d.available_buffer_pool.pool ++ [b]⟩ }, phase, l ++ r⟩
  /-- a free buffer is taken -/
  | pop {d phase others b rest} : d.available_buffer_pool.pool = b :: rest →
      Step cfg ⟨d, phase, others⟩ .others
        ⟨{ d with available_buffer_pool := ⟨rest⟩ }, phase, others ++ [b]⟩
  /-- a buffer that another thread holds is written to -/
  | overwrite {d phase l r b b'} : b'.id = b.id →
      Step cfg ⟨d, phase, l ++ b :: r⟩ .others ⟨d, phase, l ++ b' :: r⟩

/-! ## The options of a datagram -/

/-- From option to option, as the loop over the payloads goes as long as it refuses nothing.  Of its
checks these are the ones that the datagram decides. -/
structure Walks (cfg : DecoderConfig H) (packetBuffer : PacketBuffer B) (pos : Nat)
    (option : PacketHeaderOption) (pos' : Nat) : Prop where
  more : pos < packetBuffer.dataSize
  option_eq : option = optionAt cfg packetBuffer pos
  handled : Handled cfg option
  whole : option.type = COMPLETE_PACKET → Checked cfg packetBuffer pos option
  next : pos' = nextPos option pos

/-- An option with a whole frame in LZ4. -/
def WholeLz4 (option : PacketHeaderOption) : Prop :=
  option.type = COMPLETE_PACKET ∧ option.format = COMPRESSED_LZ4

/-- An option with a frame, or the first part of one, in LZ4. -/
def StartsLz4 (option : PacketHeaderOption) : Prop :=
  (option.type = COMPLETE_PACKET ∨ option.typeIsPartial = true ∧ option.part = 1) ∧
    option.format = COMPRESSED_LZ4

/-- Behind an option with a whole frame in LZ4 there is another frame, or the first part of one, in LZ4. -/
def LaterLz4 (cfg : DecoderConfig H) (packetBuffer : PacketBuffer B) : Prop :=
  ∃ options pos, StepPath (Walks cfg packetBuffer) PacketHeader.size options pos ∧
    (∃ whole ∈ options, WholeLz4 whole) ∧ pos < packetBuffer.dataSize ∧
    Checked cfg packetBuffer pos (optionAt cfg packetBuffer pos) ∧
    StartsLz4 (optionAt cfg packetBuffer pos)

/-- **The datagram repeats LZ4**: its header is accepted, and it has a frame in LZ4 behind one. -/
structure RepeatsLz4 (cfg : DecoderConfig H) (packetBuffer : PacketBuffer B) : Prop where
  long : PacketHeader.size ≤ packetBuffer.dataSize
  header : HeaderValid (headerOf cfg packetBuffer)
  first : FirstOptionValid cfg packetBuffer
  later : LaterLz4 cfg packetBuffer

/-! ## The invariant -/

namespace PacketDecoder
variable {cfg : DecoderConfig H} {d d' : PacketDecoder H B} {packetBuffer : PacketBuffer B}
  {pos : Nat} {flag : Bool} {option : PacketHeaderOption}

/-- The decoder has its buffers, and every call of LZ4's `decompress` so far was on a stream without
history. -/
structure CallsSafe (d : PacketDecoder H B) : Prop where
  dcomp_buffer : d.dcomp_buffer.isSome
  calls : ∀ call ∈ d.lz4Calls, call.blocks = []

/-- A frame in another format is pending; it keeps the stream from being used. -/
def PendingOther (d : PacketDecoder H B) : Prop :=
  d.last_part ≠ 0 ∧ d.last_format ≠ COMPRESSED_LZ4

/-- Between two calls: blocks that were decoded and not reset are behind a frame in another format. -/
structure CallsIdle (d : PacketDecoder H B) : Prop extends CallsSafe d where
  tx_buffer : d.tx_buffer.isSome
  blocks : d.blocks ≠ [] → PendingOther d

/-- Before an option: they may also be of this datagram. -/
structure CallsOption (cfg : DecoderConfig H) (packetBuffer : PacketBuffer B) (pos : Nat) (flag : Bool)
    (d : PacketDecoder H B) : Prop extends CallsSafe d where
  tx_buffer : d.tx_buffer.isSome
  once : ¬LaterLz4 cfg packetBuffer
  walked : ∃ options, StepPath (Walks cfg packetBuffer) PacketHeader.size options pos ∧
    (d.blocks ≠ [] → PendingOther d ∨ d.last_part = 0 ∧ ∃ whole ∈ options, WholeLz4 whole)
  kept : flag = false → d.blocks ≠ [] → PendingOther d

/-- Behind the push of a frame: a frame that was not assembled may have left its block. -/
structure CallsRefill (cfg : DecoderConfig H) (packetBuffer : PacketBuffer B) (assembled : Bool)
    (pos : Nat) (d : PacketDecoder H B) : Prop extends CallsSafe d where
  once : ¬LaterLz4 cfg packetBuffer
  walked : ∃ options, StepPath (Walks cfg packetBuffer) PacketHeader.size options pos ∧
    (assembled = false → d.blocks ≠ [] → ∃ whole ∈ options, WholeLz4 whole)

theorem CallsSafe.cleared (h : CallsSafe d) : CallsSafe d.cleared := ⟨h.dcomp_buffer, h.calls⟩

theorem CallsSafe.flushed (h : CallsSafe d) : CallsSafe (d.flushed cfg) := ⟨h.dcomp_buffer, h.calls⟩

variable (cfg) in
/-- A flush leaves no block. -/
theorem CallsSafe.idle_of_flushed (h : CallsSafe d) (htx : d.tx_buffer.isSome) :
    CallsIdle (d.flushed cfg) :=
  ⟨h.flushed, htx, fun hne => absurd rfl hne⟩

theorem CallsSafe.refusing (h : CallsSafe d) (htx : d.tx_buffer.isSome) :
    CallsIdle (d.refusing cfg packetBuffer) :=
  CallsSafe.idle_of_flushed _ ⟨h.dcomp_buffer, h.calls⟩
    (by simp only [PacketDecoder.cleared, Option.isSome_map]; exact htx)

variable (cfg) in
theorem CallsIdle.arrived (h : CallsIdle d) (sequence : UInt32) : CallsIdle (d.arrived cfg sequence) := by
  have h' : CallsIdle (if d.goesOn sequence then d else d.cleared.flushed cfg) := by
    split
    · exact h
    · exact h.toCallsSafe.cleared.idle_of_flushed _
        (by simp only [PacketDecoder.cleared, Option.isSome_map]; exact h.tx_buffer)
  exact ⟨⟨h'.dcomp_buffer, h'.calls⟩, h'.tx_buffer, h'.blocks⟩

/-- **A header** decodes nothing. -/
theorem CallsIdle.opened {r : Option Nat} (h : CallsIdle d) (ho : Opened cfg packetBuffer d r d') :
    CallsIdle d' ∧ ∀ pos, r = some pos → pos = PacketHeader.size ∧
      PacketHeader.size ≤ packetBuffer.dataSize ∧ HeaderValid (headerOf cfg packetBuffer) ∧
      FirstOptionValid cfg packetBuffer := by
  cases ho with
  | short =>
    exact ⟨⟨⟨h.dcomp_buffer, h.calls⟩, by rw [Option.isSome_map]; exact h.tx_buffer, h.blocks⟩, nofun⟩
  | refused _ hd1 =>
    refine ⟨?_, nofun⟩
    rcases hd1 with rfl | rfl
    · exact h.toCallsSafe.refusing h.tx_buffer
    · have h1 := h.arrived cfg (headerOf cfg packetBuffer).sequence
      exact h1.toCallsSafe.refusing h1.tx_buffer
  | passed hlong hvalid hfirst =>
    exact ⟨h.arrived _ _, fun pos hpos => ⟨(Option.some.inj hpos).symm, hlong, hvalid, hfirst⟩⟩

/-- **LZ4 is called on a stream without history**: blocks left from before would be behind a frame in
another format, which is dropped first, or of this datagram, which would repeat LZ4. -/
theorem CallsOption.begun_blocks (h : CallsOption cfg packetBuffer pos flag d)
    (hpos : pos < packetBuffer.dataSize) (hoption : option = optionAt cfg packetBuffer pos)
    (hused : Used d option) (hchecked : Checked cfg packetBuffer pos option)
    (hformat : option.format = COMPRESSED_LZ4) :
    (d.begun cfg option).blocks = [] := by
  unfold begun
  split
  · rfl
  rename_i hbegun
  by_contra hne
  obtain ⟨options, hwalk, hblocks⟩ := h.walked
  rcases hblocks hne with ⟨hpart, hother⟩ | ⟨h0, hseen⟩
  · rcases hused with hwhole | ⟨-, hun⟩
    · exact hbegun ⟨hwhole, hpart⟩
    · simp only [unusable, Bool.or_eq_false_iff, Bool.and_eq_false_iff, bne_eq_false_iff_eq] at hun
      exact hother ((hun.2.resolve_left hpart).trans hformat)
  · subst hoption
    refine h.once ⟨options, pos, hwalk, hseen, hpos, hchecked, hused.imp_right fun hpart => ⟨hpart.1, ?_⟩, hformat⟩
    -- no frame is pending, so a part that is used is the first
    have hun := hpart.2
    simp only [unusable, Bool.or_eq_false_iff, bne_eq_false_iff_eq, h0, UInt8.toNat_zero, Nat.zero_add] at hun
    exact UInt8.toNat_inj.mp hun.1.1.2

variable (cfg option) in
theorem CallsSafe.begun (h : CallsSafe d) : CallsSafe (d.begun cfg option) := by
  unfold PacketDecoder.begun
  split
  · exact h.cleared.flushed
  · exact h

/-- **Trying a record** calls LZ4 on a stream without history, if at all. -/
theorem CallsOption.tried {d1 : PacketDecoder H B} (h : CallsOption cfg packetBuffer pos flag d)
    (hpos : pos < packetBuffer.dataSize) (hoption : option = optionAt cfg packetBuffer pos)
    (htried : Tried option.format (d.begun cfg option) d1)
    (hused : d1 = d.begun cfg option ∨ Used d option ∧ Checked cfg packetBuffer pos option) :
    CallsSafe d1 := by
  have h0 := h.toCallsSafe.begun cfg option
  obtain ⟨-, -, tx1, dc1, -, -, htx1, hdc1, -⟩ := htried.buffers
  rcases hused with rfl | ⟨hused, hchecked⟩
  · exact h0
  refine ⟨hdc1 ▸ rfl, fun call hcall => ?_⟩
  rcases htried.lz4Calls with heq | ⟨hformat, call', heq, hblocks⟩
  · exact h0.calls call (heq ▸ hcall)
  · rw [heq] at hcall
    rcases List.mem_append.mp hcall with hcall | hcall
    · exact h0.calls call hcall
    · rw [List.mem_singleton.mp hcall, hblocks]
      exact h.begun_blocks hpos hoption hused hchecked hformat

/-- **An option** keeps the invariant. -/
theorem CallsOption.outcome {r : Progress} {tx : PacketBuffer B}
    (h : CallsOption cfg packetBuffer pos flag d) (hpos : pos < packetBuffer.dataSize)
    (ho : Outcome cfg packetBuffer pos flag (optionAt cfg packetBuffer pos) tx d r d') :
    match r with
    | .refused => CallsIdle d'
    | .onto pos flag => CallsOption cfg packetBuffer pos flag d'
    | .delivered assembled pos => CallsRefill cfg packetBuffer assembled pos d' := by
  obtain ⟨options, hwalk, hblocks⟩ := h.walked
  have hnext : Handled cfg (optionAt cfg packetBuffer pos) → ((optionAt cfg packetBuffer pos).type =
      COMPLETE_PACKET → Checked cfg packetBuffer pos (optionAt cfg packetBuffer pos)) →
      StepPath (Walks cfg packetBuffer) PacketHeader.size (options ++ [optionAt cfg packetBuffer pos])
        (nextPos (optionAt cfg packetBuffer pos) pos) :=
    fun hhandled hwhole => hwalk.concat ⟨hpos, rfl, hhandled, hwhole, rfl⟩
  cases ho with
  | refused htried hused =>
    obtain ⟨-, -, tx1, dc1, -, -, htx1, hdc1, -⟩ := htried.buffers
    exact (h.tried hpos rfl htried hused).refusing (htx1 ▸ rfl)
  | ignored => exact h
  | skipped htype hpart _ hsize =>
    have hwalk' := hnext ⟨hsize, Or.inr hpart⟩ fun hwhole => absurd hwhole htype
    have h1 := h.toCallsSafe.cleared.idle_of_flushed cfg
      (by simp only [PacketDecoder.cleared, Option.isSome_map]; exact h.tx_buffer)
    exact ⟨h1.toCallsSafe, h1.tx_buffer, h.once, ⟨_, hwalk', fun hne => absurd rfl hne⟩,
      fun _ hne => absurd rfl hne⟩
  | kept htype hpart hcomplete hun hsize _ _ _ hchecked =>
    have hwalk' := hnext ⟨hsize, Or.inr hpart⟩ fun hwhole => absurd hwhole htype
    -- blocks that are left and a part in LZ4 exclude each other
    have hother : d.blocks ≠ [] → (optionAt cfg packetBuffer pos).format ≠ COMPRESSED_LZ4 :=
      fun hne hformat => hne (begun_of_part cfg (d := d) htype ▸
        h.begun_blocks hpos rfl (Or.inr ⟨hpart, hun⟩) hchecked hformat)
    have hpart' : (optionAt cfg packetBuffer pos).part ≠ 0 := fun h0 => by
      simp only [unusable, Bool.or_eq_false_iff, bne_eq_false_iff_eq] at hun
      have := congrArg UInt8.toNat h0
      simp only [UInt8.reduceToNat] at this
      omega
    exact ⟨⟨h.dcomp_buffer, h.calls⟩, rfl, h.once,
      ⟨_, hwalk', fun hne => Or.inl ⟨hpart', hother hne⟩⟩, fun _ hne => ⟨hpart', hother hne⟩⟩
  | delivered hsize hused htried htx1 hsz hchecked =>
    have hwalk' := hnext ⟨hsize, hused.imp_right And.left⟩ fun _ => hchecked
    have h1 := h.tried hpos rfl htried (Or.inr ⟨hused, hchecked⟩)
    refine ⟨⟨h1.dcomp_buffer, h1.calls⟩, h.once, _, hwalk', fun hwhole hne => ?_⟩
    have htype := of_not_not (of_decide_eq_false hwhole)
    by_cases hformat : (optionAt cfg packetBuffer pos).format = COMPRESSED_LZ4
    · exact ⟨_, List.mem_append_right _ List.mem_cons_self, htype, hformat⟩
    · have hne' : (d.begun cfg (optionAt cfg packetBuffer pos)).blocks ≠ [] :=
        htried.blocks hformat ▸ hne
      unfold begun at hne'
      split at hne'
      · exact absurd rfl hne'
      rename_i hbegun
      rcases hblocks hne' with hother | ⟨-, whole, hmem, hwhole⟩
      · exact absurd ⟨htype, hother.1⟩ hbegun
      · exact ⟨whole, List.mem_append_left _ hmem, hwhole⟩

theorem CallsRefill.refill {assembled : Bool}
    (h : CallsRefill cfg packetBuffer assembled pos d)
    (hrun : (refill cfg assembled).run d = .ok () d') :
    CallsOption cfg packetBuffer pos (!assembled) d' := by
  obtain ⟨options, hwalk, hblocks⟩ := h.walked
  rcases refill_run cfg assembled d with hb | ⟨b, rest, -, hok⟩
  · rw [hb] at hrun
    cases hrun
  · rw [hok] at hrun
    obtain rfl := (EStateM.Result.ok.inj hrun).2
    cases assembled with
    | true =>
      exact ⟨⟨h.dcomp_buffer, h.calls⟩, rfl, h.once, ⟨options, hwalk, fun hne => absurd rfl hne⟩,
        fun _ hne => absurd rfl hne⟩
    | false =>
      exact ⟨⟨h.dcomp_buffer, h.calls⟩, rfl, h.once,
        ⟨options, hwalk, fun hne => Or.inr ⟨rfl, hblocks rfl hne⟩⟩, nofun⟩

theorem CallsOption.finish (h : CallsOption cfg packetBuffer pos flag d)
    (hrun : (finish cfg packetBuffer flag).run d = .ok () d') : CallsIdle d' := by
  rw [finish_run] at hrun
  obtain rfl := (EStateM.Result.ok.inj hrun).2
  cases flag with
  | true => exact CallsSafe.idle_of_flushed _ ⟨h.dcomp_buffer, h.calls⟩ h.tx_buffer
  | false => exact ⟨⟨h.dcomp_buffer, h.calls⟩, h.tx_buffer, h.kept rfl⟩

end PacketDecoder

namespace Threads
variable {cfg : DecoderConfig H} {s s' : Threads H B} {event : Event B}

/-- The invariant of the threads, by where the decoder is. -/
def Inv (cfg : DecoderConfig H) (s : Threads H B) : Prop :=
  match s.phase with
  | .idle => CallsIdle s.decoder
  | .options packetBuffer pos flag => CallsOption cfg packetBuffer pos flag s.decoder
  | .refill packetBuffer assembled pos => CallsRefill cfg packetBuffer assembled pos s.decoder

/-- The other threads change the pools only. -/
theorem Inv.pools {d : PacketDecoder H B} {phase : Phase B} {others others' : List (PacketBuffer B)}
    (h : Inv cfg ⟨d, phase, others⟩) (tx_pool available : BufferPool (PacketBuffer B) B) :
    Inv cfg ⟨{ d with tx_buffer_pool := tx_pool, available_buffer_pool := available }, phase,
      others'⟩ := by
  cases phase with
  | idle => exact ⟨⟨h.1.1, h.1.2⟩, h.2, h.3⟩
  | options => exact ⟨⟨h.1.1, h.1.2⟩, h.2, h.3, h.4, h.5⟩
  | refill => exact ⟨⟨h.1.1, h.1.2⟩, h.2, h.3⟩

/-- **Every step keeps the invariant**, if no datagram repeats LZ4. -/
theorem Inv.step (h : Inv cfg s) (hstep : Step cfg s event s')
    (honce : ∀ packetBuffer, event = .arrives packetBuffer → ¬RepeatsLz4 cfg packetBuffer) :
    Inv cfg s' := by
  cases hstep with
  | @refused d d' l r packetBuffer hrun =>
    replace h : CallsIdle d := h
    obtain ⟨tx, htx⟩ := Option.isSome_iff_exists.mp h.tx_buffer
    exact (h.opened ((decodeHeader_meets (E := fun _ _ => True) htx).ok rfl hrun)).1
  | @opened d d' l r packetBuffer pos hrun =>
    replace h : CallsIdle d := h
    obtain ⟨tx, htx⟩ := Option.isSome_iff_exists.mp h.tx_buffer
    obtain ⟨h1, hpos⟩ := h.opened ((decodeHeader_meets (E := fun _ _ => True) htx).ok rfl hrun)
    obtain ⟨rfl, hlong, hvalid, hfirst⟩ := hpos pos rfl
    exact ⟨h1.toCallsSafe, h1.tx_buffer, fun hlater => honce packetBuffer rfl ⟨hlong, hvalid, hfirst, hlater⟩,
      ⟨[], .nil _, fun hne => Or.inl (h1.blocks hne)⟩, nofun⟩
  | @optionRefused d d' packetBuffer pos flag others hpos hrun =>
    replace h : CallsOption cfg packetBuffer pos flag d := h
    obtain ⟨tx, htx⟩ := Option.isSome_iff_exists.mp h.tx_buffer
    obtain ⟨dc, hdc⟩ := Option.isSome_iff_exists.mp h.dcomp_buffer
    exact h.outcome hpos ((takeOption_meets htx hdc).ok rfl hrun)
  | @option d d' packetBuffer pos flag pos' flag' others hpos hrun =>
    replace h : CallsOption cfg packetBuffer pos flag d := h
    obtain ⟨tx, htx⟩ := Option.isSome_iff_exists.mp h.tx_buffer
    obtain ⟨dc, hdc⟩ := Option.isSome_iff_exists.mp h.dcomp_buffer
    exact h.outcome hpos ((takeOption_meets htx hdc).ok rfl hrun)
  | @delivered d d' packetBuffer pos flag assembled pos' others hpos hrun =>
    replace h : CallsOption cfg packetBuffer pos flag d := h
    obtain ⟨tx, htx⟩ := Option.isSome_iff_exists.mp h.tx_buffer
    obtain ⟨dc, hdc⟩ := Option.isSome_iff_exists.mp h.dcomp_buffer
    exact h.outcome hpos ((takeOption_meets htx hdc).ok rfl hrun)
  | refilled hrun => exact CallsRefill.refill h hrun
  | finished _ hrun => exact CallsOption.finish h hrun
  | @take d => exact h.pools _ d.available_buffer_pool
  | @giveBack d => exact h.pools d.tx_buffer_pool _
  | @pop d => exact h.pools d.tx_buffer_pool _
  | @overwrite d => exact h.pools d.tx_buffer_pool d.available_buffer_pool

/-- **Its calls are safe**: there is no block that they may read. -/
theorem Inv.safe (h : Inv cfg s) : ∀ call ∈ s.decoder.lz4Calls, call.Safe := by
  have hcalls : ∀ call ∈ s.decoder.lz4Calls, call.blocks = [] := by
    obtain ⟨d, phase, others⟩ := s
    cases phase with
    | idle => exact h.1.calls
    | options => exact h.1.calls
    | refill => exact h.1.calls
  intro call hcall block hblock
  rw [hcalls call hcall] at hblock
  exact absurd hblock List.not_mem_nil

/-- A new decoder has made no call. -/
theorem inv_of_new {tx_buffer_pool : BufferPool (PacketBuffer B) B} {available others : List (PacketBuffer B)}
    {dcomp_buffer tx : PacketBuffer B} : Inv cfg ⟨{ init cfg tx_buffer_pool ⟨available⟩ with
      dcomp_buffer := some dcomp_buffer
      tx_buffer := some tx }, .idle, others⟩ :=
  ⟨⟨rfl, nofun⟩, rfl, fun hne => absurd rfl hne⟩

/-- The decoder thread takes the datagram from the others and comes to `phase`, while they do
nothing. -/
def Alone (cfg : DecoderConfig H) (packetBuffer : PacketBuffer B) (l r : List (PacketBuffer B))
    (d : PacketDecoder H B) (phase : Phase B) (d' : PacketDecoder H B) : Prop :=
  ∃ n, StepPath (Step cfg) ⟨d, .idle, l ++ packetBuffer :: r⟩
    (.arrives packetBuffer :: List.replicate n .decodes) ⟨d', phase, l ++ r⟩

theorem Alone.more {packetBuffer : PacketBuffer B} {l r : List (PacketBuffer B)}
    {d d1 d2 : PacketDecoder H B} {phase phase' : Phase B} (h : Alone cfg packetBuffer l r d phase d1)
    (hstep : Step cfg ⟨d1, phase, l ++ r⟩ .decodes ⟨d2, phase', l ++ r⟩) :
    Alone cfg packetBuffer l r d phase' d2 := by
  obtain ⟨n, hpath⟩ := h
  refine ⟨n + 1, ?_⟩
  rw [List.replicate_succ']
  exact hpath.concat hstep

/-- **A call of `decode` that returns** is made of steps of the decoder. -/
theorem alone_of_decodes {d d' : PacketDecoder H B} {packetBuffer : PacketBuffer B}
    (l r : List (PacketBuffer B)) (h : Decodes cfg d packetBuffer d') :
    Alone cfg packetBuffer l r d .idle d' := by
  refine h.of_meets (I := (· = d)) (O := Alone cfg packetBuffer l r d .idle) (E := fun _ _ => True)
    (fun fuel => ?_) rfl
  refine decode_meets
    (L := fun pos flag => Alone cfg packetBuffer l r d (.options packetBuffer pos flag))
    (P := fun assembled pos => Alone cfg packetBuffer l r d (.refill packetBuffer assembled pos))
    ?_ (fun pos flag hpos d1 h1 => ?_) (fun assembled pos d1 h1 => ?_)
    (fun pos flag hpos d1 h1 => ?_) (fun _ _ _ _ => trivial)
  · rintro _ rfl
    split
    · rename_i result d1 hrun
      cases result with
      | none => exact ⟨0, .single (.refused hrun)⟩
      | some pos => exact ⟨0, .single (.opened hrun)⟩
    · trivial
  · split
    · rename_i result d2 hrun
      cases result with
      | refused => exact h1.more (.optionRefused hpos hrun)
      | onto => exact h1.more (.option hpos hrun)
      | delivered => exact h1.more (.delivered hpos hrun)
    · trivial
  · split
    · exact h1.more (.refilled ‹_›)
    · trivial
  · split
    · exact h1.more (.finished hpos ‹_›)
    · trivial

end Threads

/-- **If no datagram repeats LZ4**, every call of its `decompress` finds the blocks it may read in
buffers that the decoder holds, however the threads are interleaved. -/
theorem lz4_calls_safe {cfg : DecoderConfig H} {available others : List (PacketBuffer B)}
    {d0 : PacketDecoder H B} {events : List (Event B)} {s : Threads H B}
    (hstart : Starts cfg available d0)
    (hrun : StepPath (fun s event s' => Threads.Step cfg s event s' ∧
      ∀ packetBuffer, event = .arrives packetBuffer → ¬RepeatsLz4 cfg packetBuffer)
      ⟨d0, .idle, others⟩ events s) : ∀ call ∈ s.decoder.lz4Calls, call.Safe := by
  have h0 : Threads.Inv cfg ⟨d0, .idle, others⟩ := by
    obtain ⟨dc, tx, rest, -, rfl⟩ := hstart.eq
    exact Threads.inv_of_new
  exact (hrun.invariant (fun _ _ _ h hstep => h.step hstep.1 hstep.2) h0).safe

/-- A datagram with frames of three bytes, compressed with LZ4. -/
def lz4Datagram (frames : List (UInt8 × UInt8 × UInt8)) : List UInt8 :=
  (PacketEncoder.header 1 1).bytes .little ++ frames.flatMap fun (a, b, c) =>
    (PacketHeaderOption.mk COMPLETE_PACKET 3 COMPRESSED_LZ4 4 0 0).bytes ++ [48, a, b, c]

/-- One frame in LZ4. -/
theorem lz4_calls_safe_single :
    let cfg := (Tunnel.smallestLZ4 (.inet 58023 #v[192, 0, 2, 1])).decoder fun _ => 0
    let datagram : PacketBuffer 1344 := .ofData 20 (lz4Datagram [(1, 2, 3)]) (by decide)
    ∃ (d0 : PacketDecoder (List (List UInt8)) 1344) (events : List (Event 1344))
      (s : Threads (List (List UInt8)) 1344), Starts cfg (PacketBuffer.fresh 0 10) d0 ∧
      StepPath (Threads.Step cfg) ⟨d0, .idle, [datagram]⟩ events s ∧ s.decoder.lz4Calls.length = 1 ∧
      ∀ call ∈ s.decoder.lz4Calls, call.Safe := by
  intro cfg datagram
  obtain ⟨⟨⟩, d, hrun, hcalls⟩ := Call.exists_of_okAnd (p := fun d => d.lz4Calls.length == 1)
    (r := (Tunnel.smallestLZ4 (.inet 58023 #v[192, 0, 2, 1])).decoderRun (fun _ => 0) 10
      (PacketBuffer.fresh 0 10) [datagram]) (by decide +kernel)
  obtain ⟨d0, hstart, hpath⟩ := path_of_decoderRun hrun
  obtain ⟨d1, hdecodes, hnil⟩ := StepPath.cons_iff.mp hpath
  obtain rfl := StepPath.nil_iff.mp hnil
  obtain ⟨n, hsteps⟩ := Threads.alone_of_decodes [] [] hdecodes
  have honce : ¬RepeatsLz4 cfg datagram := by
    rintro ⟨-, -, -, options, pos, hwalk, ⟨whole, hmem, -⟩, hpos, -⟩
    cases options with
    | nil => exact absurd hmem List.not_mem_nil
    | cons first rest =>
      obtain ⟨pos1, hfirst, hwalk⟩ := StepPath.cons_iff.mp hwalk
      have hend : nextPos (optionAt cfg datagram PacketHeader.size) PacketHeader.size = 20 := by
        decide +kernel
      rw [hfirst.next, hfirst.option_eq, hend] at hwalk
      -- behind the option there is nothing
      cases rest with
      | nil =>
        rw [← StepPath.nil_iff.mp hwalk] at hpos
        exact absurd hpos (Nat.lt_irrefl 20)
      | cons =>
        obtain ⟨_, hsecond, -⟩ := StepPath.cons_iff.mp hwalk
        exact absurd hsecond.more (Nat.lt_irrefl 20)
  refine ⟨d0, _, _, hstart, hsteps, beq_iff_eq.mp hcalls,
    lz4_calls_safe hstart (hsteps.imp fun event hevent _ _ hstep =>
      ⟨hstep, fun packetBuffer heq => ?_⟩)⟩
  rw [heq] at hevent
  rcases List.mem_cons.mp hevent with h | h
  · rw [Event.arrives.inj h]
    exact honce
  · cases List.eq_of_mem_replicate h

/-- **Two frames in LZ4 in one datagram**: the second is decompressed when the buffer of the first,
which the stream refers to, has been handed on. -/
theorem lz4_block_handed_on :
    let cfg := (Tunnel.smallestLZ4 (.inet 58023 #v[192, 0, 2, 1])).decoder fun _ => 0
    let datagram : PacketBuffer 1344 := .ofData 20 (lz4Datagram [(1, 2, 3), (4, 5, 6)]) (by decide)
    ∃ (d0 : PacketDecoder (List (List UInt8)) 1344) (events : List (Event 1344))
      (s : Threads (List (List UInt8)) 1344), Starts cfg (PacketBuffer.fresh 0 10) d0 ∧
      StepPath (Threads.Step cfg) ⟨d0, .idle, [datagram]⟩ events s ∧
      ∃ call ∈ s.decoder.lz4Calls, ¬call.Safe := by
  intro cfg datagram
  obtain ⟨⟨⟩, d, hrun, hcalls⟩ := Call.exists_of_okAnd
    (p := fun d => d.lz4Calls.any fun call => call.blocks.any fun block =>
      call.held.all fun b => b.id != block.buffer)
    (r := (Tunnel.smallestLZ4 (.inet 58023 #v[192, 0, 2, 1])).decoderRun (fun _ => 0) 10
      (PacketBuffer.fresh 0 10) [datagram]) (by decide +kernel)
  obtain ⟨d0, hstart, hpath⟩ := path_of_decoderRun hrun
  obtain ⟨d1, hdecodes, hnil⟩ := StepPath.cons_iff.mp hpath
  obtain rfl := StepPath.nil_iff.mp hnil
  obtain ⟨n, hsteps⟩ := Threads.alone_of_decodes [] [] hdecodes
  obtain ⟨call, hcall, hblocks⟩ := List.any_eq_true.mp hcalls
  obtain ⟨block, hblock, hall⟩ := List.any_eq_true.mp hblocks
  refine ⟨d0, _, _, hstart, hsteps, call, hcall, fun hsafe => ?_⟩
  obtain ⟨b, hb, hid, -⟩ := hsafe block hblock
  exact bne_iff_ne.mp (List.all_eq_true.mp hall b hb) hid

end SuperEthd
