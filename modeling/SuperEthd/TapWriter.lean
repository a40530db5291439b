import SuperEthd.DecompressionHistory
import SuperEthd.OptionLoop
import SuperEthd.PacketSwitch

/-! # Frames written to the TAP device

`PacketSwitch::tunnel_tap_write_handler` behind the decoder of a node: it takes all frames there are,
learns their sources and writes them.  It lays the Ethernet header over the storage of a buffer without
a look at the size of the frame, so nothing but the decoder can keep short frames from it. -/
namespace SuperEthd
open PacketHeaderOptionType PacketHeaderOptionFormatType PacketDecoder

def SETH_PACKET_ETHERNET_HEADER_LEN : Nat := 14

variable {H : Type} {B : Nat}

/-- What the TAP writer works on, and a record of the frames it looked at, with the source it read, and of
those it passed to `write`. -/
structure TapWriter where
  fdb : FDB In6Addr
  remote_nodes : List In6Addr
  tested : List (List UInt8 × FDBMACAddress)
  written : List (List UInt8)

namespace TapWriter

/-- The node that sent the frame: `remote_nodes[node_key]`, null for a key that is not in the map. -/
def remoteNode (s : TapWriter) (source : SockaddrStorage) : Option In6Addr :=
  (get_key_from_sockaddr source).filter (· ∈ s.remote_nodes)

/-- The entry of the source is refreshed, or added. -/
def learn (now : Int) (buffer : PacketBuffer B) (s : TapWriter) : TapWriter :=
  match s.fdb.get buffer.src_mac with
  | some _ => { s with fdb := s.fdb.updateLastSeen buffer.src_mac now }
  | none => { s with fdb := (s.fdb.add buffer.src_mac (s.remoteNode buffer.source) now).2 }

/-- The body of the loop over the buffers. -/
def handle (online : Bool) (now : Int) (buffer : PacketBuffer B) (s : TapWriter) : TapWriter :=
  let s := { s with tested := s.tested ++ [(buffer.data, buffer.src_mac)] }
  if isMulticast buffer.src_mac then s
  else
    let s := s.learn now buffer
    if online then { s with written := s.written ++ [buffer.data] } else s

variable (online : Bool) (now : Int) (buffer : PacketBuffer B) (s : TapWriter)

@[simp] theorem learn_tested : (s.learn now buffer).tested = s.tested := by
  unfold learn
  split <;> rfl

@[simp] theorem learn_written : (s.learn now buffer).written = s.written := by
  unfold learn
  split <;> rfl

theorem handle_tested :
    (s.handle online now buffer).tested = s.tested ++ [(buffer.data, buffer.src_mac)] := by
  unfold handle
  split
  · rfl
  · cases online <;> simp

theorem handle_online (hunicast : isMulticast buffer.src_mac = false) :
    (s.handle true now buffer).written = s.written ++ [buffer.data] := by
  simp only [handle, hunicast, Bool.false_eq_true, if_false, if_true, learn_written]

theorem handle_written : (s.handle online now buffer).written = s.written ∨
    (s.handle online now buffer).written = s.written ++ [buffer.data] := by
  unfold handle
  split
  · exact Or.inl rfl
  · cases online <;> simp

end TapWriter

/-- The decoder with its threads, and the TAP writer with the buffers of its round: those still to be
handled, and those that were. -/
structure TapSide (H : Type) (B : Nat) where
  threads : Threads H B
  writer : TapWriter
  buffers : List (PacketBuffer B)
  handled : List (PacketBuffer B)

/-- The option at `pos` passes its checks and completes a frame. -/
def PacketDecoder.Completes (cfg : DecoderConfig H) (packetBuffer : PacketBuffer B) (pos : Nat)
    (d : PacketDecoder H B) : Prop :=
  let option := optionAt cfg packetBuffer pos
  Passes cfg packetBuffer option pos d ∧ Used d option ∧
    (option.type = COMPLETE_PACKET ∨ option.typeIsComplete = true)

/-- The decoder is before an option that passes its checks, completes a frame, and says this size. -/
def Threads.Delivers (cfg : DecoderConfig H) (size : Nat) (s : Threads H B) : Prop :=
  ∃ packetBuffer pos flag, s.phase = .options packetBuffer pos flag ∧ pos < packetBuffer.dataSize ∧
    Completes cfg packetBuffer pos s.decoder ∧ (optionAt cfg packetBuffer pos).packet_size = size

namespace TapSide

/-- **The threads.**  The TAP writer alone takes frames from the TX pool, all there are at once; its
buffers go to the available pool when all of them are handled. -/
inductive Step (cfg : DecoderConfig H) : TapSide H B → Event B → TapSide H B → Prop
  | decoder {s : TapSide H B} {event : Event B} {threads : Threads H B}
      (step : Threads.Step cfg s.threads event threads)
      (frames : event = .others →
        threads.decoder.tx_buffer_pool = s.threads.decoder.tx_buffer_pool) :
      Step cfg s event { s with threads := threads }
  | wait {s : TapSide H B} (buffers : s.buffers = []) (handled : s.handled = []) :
      Step cfg s .others { s with
        -- the record of the options goes with the frames
        threads := { s.threads with decoder := { s.threads.decoder with
          tx_buffer_pool := ⟨[]⟩, completedBy := [] } }
        buffers := s.threads.decoder.tx_buffer_pool.pool }
  | handle {s : TapSide H B} {buffer : PacketBuffer B} {rest : List (PacketBuffer B)} {online : Bool}
      {now : Int} (buffers : s.buffers = buffer :: rest) :
      Step cfg s .others { s with
        writer := s.writer.handle online now buffer
        buffers := rest
        handled := s.handled ++ [buffer] }
  | giveBack {s : TapSide H B} (buffers : s.buffers = []) :
      Step cfg s .others { s with
        threads := { s.threads with decoder := { s.threads.decoder with
          available_buffer_pool := ⟨s.threads.decoder.available_buffer_pool.pool ++ s.handled⟩ } }
        handled := [] }
  /-- other threads learn and expire -/
  | learning {s : TapSide H B} {fdb : FDB In6Addr} :
      Step cfg s .others { s with writer := { s.writer with fdb := fdb } }

/-- **No short frame reaches the Ethernet layer**: the frames that were looked at hold the header, so
the source is the bytes 6 to 11 of the frame itself, and none that was passed to `write` is shorter. -/
structure EthernetSized (s : TapSide H B) : Prop where
  tested : ∀ frame mac, (frame, mac) ∈ s.writer.tested → SETH_PACKET_ETHERNET_HEADER_LEN ≤ frame.length ∧
    mac = Vector.ofFn fun i => frame.getD (6 + i) 0
  written : ∀ frame ∈ s.writer.written, SETH_PACKET_ETHERNET_HEADER_LEN ≤ frame.length

end TapSide

/-! ## What the decoder pushes -/

namespace PacketDecoder
variable {cfg : DecoderConfig H} {d d' : PacketDecoder H B} {packetBuffer : PacketBuffer B}
  {option : PacketHeaderOption} {pos : Nat} {flag : Bool}

/-- Nothing is delivered. -/
def NotDelivered (r : Progress) : Prop := ∀ assembled pos, r ≠ .delivered assembled pos

theorem pure_notDelivered {r : Progress} (h : NotDelivered r) : Call.Meets (fun _ => True)
    (pure r : DecoderCall H B Progress) (fun r _ => NotDelivered r) fun _ _ => True := fun _ _ => h

theorem refuse_notDelivered : Call.Meets (fun _ => True) (refuse cfg packetBuffer)
    (fun r _ => NotDelivered r) fun _ _ => True := by
  refine (Call.Meets.trivial _).bind fun _ => pure_notDelivered ?_
  intro assembled pos h
  cases h

theorem partialOption_notDelivered (hpart : option.typeIsComplete = false) :
    Call.Meets (fun _ => True) (partialOption cfg packetBuffer option pos)
      (fun r _ => NotDelivered r) fun _ _ => True := by
  have honto : ∀ next flag, NotDelivered (.onto next flag) := by
    intro next flag assembled pos h
    cases h
  unfold partialOption
  refine (Call.Meets.trivial _).bind fun d => .ite (fun _ => ?_) fun _ => ?_
  · exact (Call.Meets.trivial _).bind fun _ => pure_notDelivered (honto _ _)
  refine .ite (fun _ => refuse_notDelivered) fun _ => ?_
  refine (Call.Meets.trivial _).bind fun tx => ?_
  refine .ite (fun _ => refuse_notDelivered) fun _ => .ite (fun _ => refuse_notDelivered) fun _ => ?_
  refine (Call.Meets.trivial _).bind fun tx1 => (Call.Meets.trivial _).bind fun _ => ?_
  refine .ite (fun hc => absurd (hc.symm.trans hpart) Bool.noConfusion) fun _ => ?_
  exact (Call.Meets.trivial _).bind fun _ => pure_notDelivered (honto _ _)

/-- An option that delivers a frame completes it. -/
theorem completes_of_delivered {assembled : Bool} {pos' : Nat}
    (hrun : (takeOption cfg packetBuffer pos flag).run d = .ok (.delivered assembled pos') d') :
    (optionAt cfg packetBuffer pos).type = COMPLETE_PACKET ∨
      (optionAt cfg packetBuffer pos).typeIsComplete = true := by
  by_contra hc
  obtain ⟨htype, hcomplete⟩ := not_or.mp hc
  have hmeets : Call.Meets (fun _ => True) (takeOption cfg packetBuffer pos flag)
      (fun r _ => NotDelivered r) fun _ _ => True := by
    refine .ite (fun _ => refuse_notDelivered) fun _ => .ite (fun h => absurd h htype) fun _ => ?_
    refine .ite (fun _ => partialOption_notDelivered (Bool.eq_false_iff.mpr hcomplete)) fun _ => ?_
    refine pure_notDelivered ?_
    intro assembled pos h
    cases h
  exact hmeets.ok trivial hrun assembled pos' rfl

theorem Opened.frames {r : Option Nat} (h : Opened cfg packetBuffer d r d') :
    d'.tx_buffer_pool = d.tx_buffer_pool := by
  have harrived : ∀ sequence, (d.arrived cfg sequence).tx_buffer_pool = d.tx_buffer_pool := by
    intro sequence
    unfold arrived
    split <;> rfl
  cases h with
  | short => rfl
  | refused _ hd1 =>
    rcases hd1 with rfl | rfl
    · rfl
    · exact harrived _
  | passed => exact harrived _

/-- The frame that an option delivers has the size it says. -/
theorem Outcome.frames {tx : PacketBuffer B} {r : Progress}
    (h : Outcome cfg packetBuffer pos flag option tx d r d') :
    d'.tx_buffer_pool = d.tx_buffer_pool ∨ ∃ assembled pos' frame, r = .delivered assembled pos' ∧
      d'.tx_buffer_pool.pool = d.tx_buffer_pool.pool ++ [frame] ∧
      frame.dataSize = option.packet_size := by
  cases h with
  | refused htried => exact Or.inl (htried.tx_buffer_pool.trans (begun_tx_buffer_pool cfg option))
  | ignored => exact Or.inl rfl
  | skipped => exact Or.inl rfl
  | kept => exact Or.inl rfl
  | @delivered d1 frame _ _ htried _ hsize =>
    refine Or.inr ⟨_, _, { frame with source := packetBuffer.source }, rfl, ?_, hsize⟩
    show d1.tx_buffer_pool.pool ++ _ = _
    rw [htried.tx_buffer_pool, begun_tx_buffer_pool]

/-- **A frame that is delivered** was completed by an option that passed its checks, and has the size
that it says. -/
theorem Sized.delivers (h : Sized cfg d) (hlibs : LibsBounded cfg B) {r : Progress}
    (hrun : (PacketDecoder.takeOption cfg packetBuffer pos flag).run d = .ok r d')
    {b : PacketBuffer B} (hb : b ∈ d'.tx_buffer_pool.pool) : b ∈ d.tx_buffer_pool.pool ∨
      Completes cfg packetBuffer pos d ∧
        (optionAt cfg packetBuffer pos).packet_size = b.dataSize := by
  obtain ⟨tx, htx, -⟩ := h.tx_buffer
  obtain ⟨dc, hdc⟩ := Option.isSome_iff_exists.mp h.dcomp_buffer
  rcases ((takeOption_meets htx hdc).ok rfl hrun).frames with
    heq | ⟨assembled, pos', frame, rfl, heq, hsize⟩
  · exact Or.inl (heq ▸ hb)
  · have hacted : ActedOn d d' := by
      refine Or.inl ?_
      rw [heq, List.length_append]
      exact Nat.lt_succ_self _
    obtain ⟨hpasses, hused⟩ := h.acted hlibs hrun hacted
    rw [heq] at hb
    rcases List.mem_append.mp hb with hb | hb
    · exact Or.inl hb
    · rw [List.mem_singleton.mp hb]
      exact Or.inr ⟨⟨hpasses, hused, completes_of_delivered hrun⟩, hsize.symm⟩

end PacketDecoder

namespace Threads
variable {cfg : DecoderConfig H} {s s' : Threads H B} {event : Event B}

/-- The sizes hold, by where the decoder is. -/
def SizedAt (cfg : DecoderConfig H) (s : Threads H B) : Prop :=
  match s.phase with
  | .idle | .options _ _ _ => Sized cfg s.decoder
  | .refill _ _ _ => Disciplined cfg s.decoder ∧ s.decoder.dcomp_buffer.isSome

/-- The other threads change the available pool only. -/
theorem SizedAt.pools {d : PacketDecoder H B} {phase : Phase B} {others others' : List (PacketBuffer B)}
    (h : SizedAt cfg ⟨d, phase, others⟩) (available : BufferPool (PacketBuffer B) B) :
    SizedAt cfg ⟨{ d with available_buffer_pool := available }, phase, others'⟩ := by
  cases phase with
  | idle => exact Sized.congr h rfl rfl rfl rfl rfl
  | options => exact Sized.congr h rfl rfl rfl rfl rfl
  | refill => exact ⟨h.1.congr rfl rfl, h.2⟩

/-- The writer takes all frames. -/
theorem SizedAt.taken (h : SizedAt cfg s) : SizedAt cfg { s with
    decoder := { s.decoder with tx_buffer_pool := ⟨[]⟩, completedBy := [] } } := by
  obtain ⟨d, phase, others⟩ := s
  have hnone : ∀ d : PacketDecoder H B, Disciplined cfg { d with
      tx_buffer_pool := ⟨[]⟩, completedBy := [] } := fun d => ⟨.nil, fun tx _ => tx.dataSize_le⟩
  cases phase with
  | idle =>
    have h : Sized cfg d := h
    exact ⟨hnone d, h.dcomp_buffer, h.tx_buffer⟩
  | options =>
    have h : Sized cfg d := h
    exact ⟨hnone d, h.dcomp_buffer, h.tx_buffer⟩
  | refill => exact ⟨hnone d, h.2⟩

/-- **Every step keeps the sizes.** -/
theorem SizedAt.step (hlibs : LibsBounded cfg B) (h : SizedAt cfg s) (hstep : Step cfg s event s')
    (hframes : event = .others → s'.decoder.tx_buffer_pool = s.decoder.tx_buffer_pool) :
    SizedAt cfg s' := by
  cases hstep with
  | @refused d d' l r packetBuffer hrun =>
    exact (decodeHeader_sized (E := fun _ _ => True) cfg packetBuffer).ok h hrun
  | @opened d d' l r packetBuffer pos hrun =>
    exact (decodeHeader_sized (E := fun _ _ => True) cfg packetBuffer).ok h hrun
  | @optionRefused d d' packetBuffer pos flag others hpos hrun =>
    exact (takeOption_sized (E := fun _ _ => True) packetBuffer hlibs pos flag).ok h hrun
  | @option d d' packetBuffer pos flag pos' flag' others hpos hrun =>
    exact (takeOption_sized (E := fun _ _ => True) packetBuffer hlibs pos flag).ok h hrun
  | @delivered d d' packetBuffer pos flag assembled pos' others hpos hrun =>
    exact (takeOption_sized (E := fun _ _ => True) packetBuffer hlibs pos flag).ok h hrun
  | refilled hrun => exact (refill_sized cfg _).ok h hrun
  | finished _ hrun => exact (finish_sized (E := fun _ _ => True) _).ok h hrun
  | @take d phase others b rest hpool =>
    have hrest := congrArg (List.length ∘ BufferPool.pool) (hframes rfl)
    simp only [Function.comp_apply, hpool, List.length_cons] at hrest
    omega
  | giveBack => exact h.pools _
  | pop => exact h.pools _
  | @overwrite d => exact h.pools d.available_buffer_pool

/-- **Every frame is of its option's size**: what a step adds to the TX pool. -/
theorem SizedAt.frames (hlibs : LibsBounded cfg B) (h : SizedAt cfg s) (hstep : Step cfg s event s')
    (hframes : event = .others → s'.decoder.tx_buffer_pool = s.decoder.tx_buffer_pool)
    {b : PacketBuffer B} (hb : b ∈ s'.decoder.tx_buffer_pool.pool) :
    b ∈ s.decoder.tx_buffer_pool.pool ∨ Delivers cfg b.dataSize s := by
  have htake : ∀ d d' packetBuffer pos flag r, Sized cfg d → s.decoder = d →
      s.phase = .options packetBuffer pos flag → pos < packetBuffer.dataSize →
      (takeOption cfg packetBuffer pos flag).run d = .ok r d' → b ∈ d'.tx_buffer_pool.pool →
      b ∈ s.decoder.tx_buffer_pool.pool ∨ Delivers cfg b.dataSize s := by
    intro d d' packetBuffer pos flag r hd hdecoder hphase hpos hrun hb
    subst hdecoder
    exact (hd.delivers hlibs hrun hb).imp_right fun h => ⟨packetBuffer, pos, flag, hphase, hpos, h⟩
  cases hstep with
  | refused hrun =>
    obtain ⟨tx, htx, -⟩ := Sized.tx_buffer h
    exact Or.inl (((decodeHeader_meets (E := fun _ _ => True) htx).ok rfl hrun).frames ▸ hb)
  | opened hrun =>
    obtain ⟨tx, htx, -⟩ := Sized.tx_buffer h
    exact Or.inl (((decodeHeader_meets (E := fun _ _ => True) htx).ok rfl hrun).frames ▸ hb)
  | optionRefused hpos hrun => exact htake _ _ _ _ _ _ h rfl rfl hpos hrun hb
  | option hpos hrun => exact htake _ _ _ _ _ _ h rfl rfl hpos hrun hb
  | delivered hpos hrun => exact htake _ _ _ _ _ _ h rfl rfl hpos hrun hb
  | @refilled d d' packetBuffer assembled pos others hrun =>
    rcases refill_run cfg assembled d with hblocked | ⟨buffer, rest, -, hok⟩
    · cases hblocked.symm.trans hrun
    · obtain rfl := (EStateM.Result.ok.inj (hok.symm.trans hrun)).2
      cases assembled with
      | true => exact Or.inl hb
      | false => exact Or.inl hb
  | @finished d d' packetBuffer pos flag others _ hrun =>
    obtain rfl := (EStateM.Result.ok.inj ((finish_run flag).symm.trans hrun)).2
    cases flag with
    | true => exact Or.inl hb
    | false => exact Or.inl hb
  | take => exact Or.inl (hframes rfl ▸ hb)
  | giveBack => exact Or.inl hb
  | pop => exact Or.inl hb
  | overwrite => exact Or.inl hb

end Threads

/-! ## Whole runs -/

namespace TapSide
variable {cfg : DecoderConfig H} {s s' : TapSide H B} {event : Event B}

/-- The invariant: the sizes hold, and no frame that waits for the writer is short. -/
structure Inv (cfg : DecoderConfig H) (s : TapSide H B) : Prop extends EthernetSized s where
  sized : Threads.SizedAt cfg s.threads
  frames : ∀ b ∈ s.threads.decoder.tx_buffer_pool.pool, SETH_PACKET_ETHERNET_HEADER_LEN ≤ b.dataSize
  buffers : ∀ b ∈ s.buffers, SETH_PACKET_ETHERNET_HEADER_LEN ≤ b.dataSize

/-- The writer looks at a frame that holds the header. -/
theorem EthernetSized.handle (h : EthernetSized s) {buffer : PacketBuffer B}
    (hlong : SETH_PACKET_ETHERNET_HEADER_LEN ≤ buffer.dataSize) (online : Bool) (now : Int)
    (rest handled : List (PacketBuffer B)) :
    EthernetSized { s with
      writer := s.writer.handle online now buffer, buffers := rest, handled := handled } := by
  have hlong' : SETH_PACKET_ETHERNET_HEADER_LEN ≤ buffer.data.length := by
    rwa [PacketBuffer.data_length]
  have hmac : buffer.src_mac = Vector.ofFn fun i => buffer.data.getD (6 + i) 0 :=
    PacketBuffer.src_mac_of_data rfl (Nat.le_trans (by decide) hlong')
  have hwritten := s.writer.handle_written online now buffer
  constructor
  · intro frame mac hmem
    rw [TapWriter.handle_tested] at hmem
    rcases List.mem_append.mp hmem with hmem | hmem
    · exact h.tested frame mac hmem
    · obtain ⟨rfl, rfl⟩ := Prod.mk.inj (List.mem_singleton.mp hmem)
      exact ⟨hlong', hmac⟩
  · intro frame hmem
    rcases hwritten with heq | heq
    · exact h.written frame (heq ▸ hmem)
    · rw [heq] at hmem
      rcases List.mem_append.mp hmem with hmem | hmem
      · exact h.written frame hmem
      · rw [List.mem_singleton.mp hmem]
        exact hlong'

/-- **Every step keeps the invariant**, if the decoder delivers no short frame. -/
theorem Inv.step (hlibs : LibsBounded cfg B) (h : Inv cfg s) (hstep : Step cfg s event s')
    (hlong : ∀ size, s.threads.Delivers cfg size → SETH_PACKET_ETHERNET_HEADER_LEN ≤ size) :
    Inv cfg s' := by
  cases hstep with
  | decoder step frames =>
    refine ⟨⟨h.tested, h.written⟩, h.sized.step hlibs step frames, ?_, h.buffers⟩
    intro b hb
    rcases h.sized.frames hlibs step frames hb with hb | hdelivers
    · exact h.frames b hb
    · exact hlong _ hdelivers
  | wait =>
    refine ⟨⟨h.tested, h.written⟩, h.sized.taken, ?_, h.frames⟩
    intro b hb
    cases hb
  | @handle buffer rest online now buffers =>
    have hbuffers : ∀ b ∈ buffer :: rest, SETH_PACKET_ETHERNET_HEADER_LEN ≤ b.dataSize :=
      buffers ▸ h.buffers
    have hsized := h.toEthernetSized.handle (hbuffers buffer List.mem_cons_self) online now rest
      (s.handled ++ [buffer])
    exact ⟨hsized, h.sized, h.frames, fun b hb => hbuffers b (List.mem_cons_of_mem _ hb)⟩
  | giveBack => exact ⟨⟨h.tested, h.written⟩, h.sized.pools _, h.frames, h.buffers⟩
  | learning => exact ⟨⟨h.tested, h.written⟩, h.sized, h.frames, h.buffers⟩

/-- Nothing has arrived yet. -/
def start (d : PacketDecoder H B) (others : List (PacketBuffer B)) (remote_nodes : List In6Addr) :
    TapSide H B :=
  ⟨⟨d, .idle, others⟩, ⟨KeyedList.empty, remote_nodes, [], []⟩, [], []⟩

/-- **Short frames never reach the Ethernet layer** in a run in which the decoder delivers none: the
decoder has no lower bound for a frame, and the writer does not look at the size. -/
theorem ethernetSized_of_path (hlibs : LibsBounded cfg B) {available others : List (PacketBuffer B)}
    {remote_nodes : List In6Addr} {d0 : PacketDecoder H B} {events : List (Event B)}
    (hstart : Starts cfg available d0)
    (hrun : StepPath (fun s event s' => Step cfg s event s' ∧
      ∀ size, s.threads.Delivers cfg size → SETH_PACKET_ETHERNET_HEADER_LEN ≤ size)
      (start d0 others remote_nodes) events s) : EthernetSized s := by
  have h0 : Inv cfg (start d0 others remote_nodes) := by
    refine ⟨⟨fun _ _ h => absurd h List.not_mem_nil, fun _ h => absurd h List.not_mem_nil⟩,
      hstart.sized, ?_, fun _ h => absurd h List.not_mem_nil⟩
    obtain ⟨dc, tx, rest, -, rfl⟩ := hstart.eq
    intro b hb
    cases hb
  exact (hrun.invariant (fun _ _ _ h hstep => h.step hlibs hstep.1 hstep.2) h0).toEthernetSized

/-- A new decoder takes a datagram up to its first option, with the outcome given. -/
def firstOption (cfg : DecoderConfig H) (packetBuffer : PacketBuffer B) (progress : Progress) :
    DecoderCall H B Unit := do
  PacketDecoder.new
  let pos ← decodeHeader cfg packetBuffer
  let r ← takeOption cfg packetBuffer PacketHeader.size true
  Call.ofExcept (if pos = some PacketHeader.size ∧ r = progress then .ok () else .error .running)

/-- The frame of the first option of a datagram is delivered and handled. -/
theorem exists_handled {packetBuffer : PacketBuffer B} {available : List (PacketBuffer B)}
    {d2 : PacketDecoder H B} {pos : Nat} {assembled : Bool} {frame : List UInt8} {mac : FDBMACAddress}
    (remote_nodes : List In6Addr)
    (hrun : (firstOption cfg packetBuffer (.delivered assembled pos)).run
      (.init cfg ⟨[]⟩ ⟨available⟩) = .ok () d2)
    (hpos : PacketHeader.size < packetBuffer.dataSize)
    (hframe : d2.tx_buffer_pool.pool.map (fun b => (b.data, b.src_mac)) = [(frame, mac)])
    (hunicast : isMulticast mac = false) :
    ∃ d0 events s, Starts cfg available d0 ∧
      StepPath (fun s event s' => Step cfg s event s' ∧ ∀ size, s.threads.Delivers cfg size →
          (optionAt cfg packetBuffer PacketHeader.size).packet_size = size)
        (start d0 [packetBuffer] remote_nodes) events s ∧
      s.writer.tested = [(frame, mac)] ∧ s.writer.written = [frame] := by
  obtain ⟨⟨⟩, d0, hstart, hrun⟩ := Call.run_bind_eq_ok.mp hrun
  obtain ⟨r, d1, hheader, hrun⟩ := Call.run_bind_eq_ok.mp hrun
  obtain ⟨r', d3, htake, hrun⟩ := Call.run_bind_eq_ok.mp hrun
  have hgood : r = some PacketHeader.size ∧ r' = .delivered assembled pos := by
    by_contra hbad
    rw [if_neg hbad] at hrun
    cases hrun
  obtain ⟨rfl, rfl⟩ := hgood
  rw [if_pos ⟨rfl, rfl⟩] at hrun
  obtain rfl := (EStateM.Result.ok.inj hrun).2
  obtain ⟨buffer, hframes, heq⟩ := List.map_eq_singleton_iff.mp hframe
  obtain ⟨rfl, rfl⟩ := Prod.mk.inj heq
  have hquiet : ∀ s : TapSide H B,
      (∀ packetBuffer pos flag, s.threads.phase ≠ .options packetBuffer pos flag) →
      ∀ size, s.threads.Delivers cfg size →
        (optionAt cfg packetBuffer PacketHeader.size).packet_size = size := by
    rintro s hphase size ⟨packetBuffer, pos, flag, h, -⟩
    exact absurd h (hphase packetBuffer pos flag)
  refine ⟨d0, _, _, hstart, .cons ⟨.decoder (.opened (l := []) hheader) (fun h => by cases h), ?_⟩
    (.cons ⟨.decoder (.delivered hpos htake) (fun h => by cases h), ?_⟩ (.cons ⟨.wait rfl rfl, ?_⟩
      (.cons ⟨@Step.handle H B cfg _ buffer [] true 0 hframes, ?_⟩ (.nil _)))), ?_, ?_⟩
  · exact hquiet _ fun _ _ _ h => by cases h
  · rintro size ⟨packetBuffer', pos', flag, h, -, -, hsize⟩
    cases h
    exact hsize
  · exact hquiet _ fun _ _ _ h => by cases h
  · exact hquiet _ fun _ _ _ h => by cases h
  · exact (TapWriter.handle_tested _ _ _ _).trans (List.nil_append _)
  · exact (TapWriter.handle_online _ _ _ hunicast).trans (List.nil_append _)

/-- A frame that is just an Ethernet header. -/
theorem ethernetSized_of_path_header :
    let cfg := (Tunnel.smallestLZ4 (.inet 58023 #v[192, 0, 2, 1])).decoder fun _ => 0
    let frame : List UInt8 := [0x02, 0, 0, 0, 0, 0x02, 0x02, 0, 0, 0, 0, 0x01, 8, 0]
    let datagram : PacketBuffer 1344 := .ofData 20 ((PacketEncoder.header 1 1).bytes .little ++
      (PacketHeaderOption.mk COMPLETE_PACKET 14 NONE 14 0 0).bytes ++ frame) (by decide)
    ∃ (d0 : PacketDecoder (List (List UInt8)) 1344) (events : List (Event 1344))
      (s : TapSide (List (List UInt8)) 1344), Starts cfg (PacketBuffer.fresh 0 10) d0 ∧
      StepPath (Step cfg) (start d0 [datagram] []) events s ∧
      s.writer.tested = [(frame, #v[0x02, 0, 0, 0, 0, 0x01])] ∧ EthernetSized s := by
  intro cfg frame datagram
  obtain ⟨⟨⟩, d2, hrun, hframes⟩ := Call.exists_of_okAnd
    (p := fun d => d.tx_buffer_pool.pool.map (fun b => (b.data, b.src_mac)) ==
      [(frame, #v[0x02, 0, 0, 0, 0, 0x01])])
    (r := (firstOption cfg datagram (.delivered false 30)).run (.init cfg ⟨[]⟩ ⟨PacketBuffer.fresh 0 10⟩))
    (by decide +kernel)
  obtain ⟨d0, events, s, hstart, hpath, htested, -⟩ :=
    exists_handled [] hrun (by decide) (beq_iff_eq.mp hframes) (by decide)
  have hsize : (optionAt cfg datagram PacketHeader.size).packet_size = 14 := by decide +kernel
  refine ⟨d0, events, s, hstart, hpath.imp fun _ _ _ _ h => h.1, htested,
    ethernetSized_of_path ⟨StreamCompressor.literals_decompressBounded _,
      StreamCompressor.literals_decompressBounded _⟩ hstart (hpath.imp fun _ _ s s' h => ⟨h.1, ?_⟩)⟩
  intro size hdelivers
  rw [← h.2 size hdelivers, hsize]
  exact Nat.le_refl _

/-- **A frame of four bytes** is looked at by the TAP writer, which takes the source from what the
buffer held before, and passes the frame to `write`. -/
theorem short_frame_reaches_tap :
    let cfg := (Tunnel.smallestLZ4 (.inet 58023 #v[192, 0, 2, 1])).decoder fun _ => 0
    let datagram : PacketBuffer 1344 := .ofData 20 ((PacketEncoder.header 1 1).bytes .little ++
      (PacketHeaderOption.mk COMPLETE_PACKET 4 NONE 4 0 0).bytes ++ [10, 20, 30, 40]) (by decide)
    ∃ (d0 : PacketDecoder (List (List UInt8)) 1344) (events : List (Event 1344))
      (s : TapSide (List (List UInt8)) 1344), Starts cfg (PacketBuffer.fresh 0 10) d0 ∧
      StepPath (Step cfg) (start d0 [datagram] []) events s ∧
      s.writer.tested = [([10, 20, 30, 40], #v[0, 0, 0, 0, 0, 0])] ∧
      s.writer.written = [[10, 20, 30, 40]] ∧ ¬EthernetSized s := by
  intro cfg datagram
  obtain ⟨⟨⟩, d2, hrun, hframes⟩ := Call.exists_of_okAnd
    (p := fun d => d.tx_buffer_pool.pool.map (fun b => (b.data, b.src_mac)) ==
      [([10, 20, 30, 40], #v[0, 0, 0, 0, 0, 0])])
    (r := (firstOption cfg datagram (.delivered false 20)).run (.init cfg ⟨[]⟩ ⟨PacketBuffer.fresh 0 10⟩))
    (by decide +kernel)
  obtain ⟨d0, events, s, hstart, hpath, htested, hwritten⟩ :=
    exists_handled [] hrun (by decide) (beq_iff_eq.mp hframes) (by decide)
  refine ⟨d0, events, s, hstart, hpath.imp fun _ _ _ _ h => h.1, htested, hwritten, fun hsized => ?_⟩
  have hshort := hsized.written [10, 20, 30, 40] (hwritten ▸ List.mem_cons_self)
  exact absurd hshort (by decide)

end TapSide
end SuperEthd
