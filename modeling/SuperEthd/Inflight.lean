import Mathlib.Data.List.DropRight
import SuperEthd.CompressorFailure

/-! # Buffers in flight

A codec keeps the buffers that its compression streams may still refer to in `inflight_buffers`,
taken out of the fixed pool.  Both lists are bounded: that of the decoder by the number of the
last part, whatever datagrams come, and that of the encoder, which holds what was compressed
since the last reset, by the options in `tx_buffer`. -/
namespace SuperEthd
open PacketHeaderOptionType PacketHeaderOptionFormatType

/-! ## The decoder -/

namespace PacketDecoder
variable {H : Type} {B : Nat} {cfg : DecoderConfig H} {d d' : PacketDecoder H B}
  {packetBuffer : PacketBuffer B} {flag : Bool}

/-- Between two options: one buffer for each part of the pending frame, and one more only if the
list is to be flushed at the end of the datagram. -/
structure Retains (flag : Bool) (d : PacketDecoder H B) : Prop where
  owns : ∃ m, Owns m d
  inflight : d.inflight_buffers.length ≤ d.last_part.toNat + flag.toNat

/-- After the push of a frame: the list is flushed when `tx_buffer` is refilled, if the frame was
assembled from parts. -/
structure RetainsPushed (assembled : Bool) (d : PacketDecoder H B) : Prop where
  owns : ∃ m, OwnsPushed m d
  inflight : assembled = false → d.inflight_buffers.length ≤ 1

theorem Retains.dropped (h : Retains flag d) : Retains false (d.cleared.flushed cfg) := by
  obtain ⟨m, hm⟩ := h.owns
  exact ⟨⟨m, hm.cleared.flushed⟩, Nat.zero_le _⟩

theorem Retains.arrived (h : Retains true d) (sequence : UInt32) :
    Retains true (d.arrived cfg sequence) := by
  obtain ⟨m, hm⟩ := h.owns
  refine ⟨⟨m, hm.arrived sequence⟩, ?_⟩
  unfold PacketDecoder.arrived
  split
  · exact h.inflight
  · exact Nat.zero_le _

/-- A header that is refused leaves nothing in flight; one that drops the pending frame neither. -/
theorem Retains.opened {r : Option Nat} (h : Retains true d) (ho : Opened cfg packetBuffer d r d') :
    Retains true d' := by
  obtain ⟨m, hm⟩ := h.owns
  cases ho with
  | short =>
    refine ⟨⟨_, rfl, ?_, hm.dcomp_buffer⟩, h.inflight⟩
    rw [Option.isSome_map]
    exact hm.tx_buffer
  | refused _ hd1 =>
    rcases hd1 with rfl | rfl
    · exact ⟨⟨_, hm.refusing⟩, Nat.zero_le _⟩
    · exact ⟨⟨_, (hm.arrived _).refusing⟩, Nat.zero_le _⟩
  | passed => exact h.arrived _

/-- An option that carries a whole frame finds at most one buffer in flight. -/
theorem Retains.begun {option : PacketHeaderOption} (h : Retains flag d)
    (htype : option.type = COMPLETE_PACKET) : (d.begun cfg option).inflight_buffers.length ≤ 1 := by
  unfold PacketDecoder.begun
  split
  · exact Nat.zero_le _
  · rename_i hnot
    have h0 : d.last_part = 0 := Decidable.not_not.mp fun h0 => hnot ⟨htype, h0⟩
    have hle := h.inflight
    rw [h0] at hle
    exact hle.trans ((Nat.zero_add _).le.trans flag.toNat_le)

/-- **An option** keeps the bound: a part that is kept has the next number. -/
theorem Retains.outcome {pos : Nat} {option : PacketHeaderOption} {tx : PacketBuffer B}
    {r : Progress} (h : Retains flag d) (htx : d.tx_buffer = some tx)
    (ho : Outcome cfg packetBuffer pos flag option tx d r d') :
    match r with
    | .refused => Retains true d'
    | .onto _ flag => Retains flag d'
    | .delivered assembled _ => RetainsPushed assembled d' := by
  obtain ⟨m, hm⟩ := h.owns
  have howns := hm.outcome htx ho
  cases ho with
  | refused => exact ⟨⟨_, howns⟩, Nat.zero_le _⟩
  | ignored => exact h
  | skipped => exact h.dropped
  | kept _ _ _ hun =>
    refine ⟨⟨_, howns⟩, ?_⟩
    have hnext : option.part.toNat = d.last_part.toNat + 1 := by
      simp only [unusable, Bool.or_eq_false_iff, bne_eq_false_iff_eq] at hun
      exact hun.1.1.2
    have hle := h.inflight
    have hflag := flag.toNat_le
    show d.inflight_buffers.length ≤ option.part.toNat + 0
    omega
  | @delivered d1 _ _ _ htried =>
    refine ⟨⟨_, howns⟩, fun hassembled => ?_⟩
    have htype : option.type = COMPLETE_PACKET := by simpa using hassembled
    show d1.inflight_buffers.length ≤ 1
    rw [htried.inflight_buffers]
    exact h.begun htype

theorem RetainsPushed.refill {assembled : Bool} (h : RetainsPushed assembled d) :
    Call.Meets (· = d) (refill cfg assembled) (fun _ => Retains (!assembled)) fun _ _ => True := by
  rintro d rfl
  obtain ⟨m, hm⟩ := h.owns
  rcases refill_run cfg assembled d with hb | ⟨b, rest, hpool, hrun⟩
  · rw [hb]
    trivial
  · have howns := (hm.refill assembled).ok rfl hrun
    rw [hrun]
    refine ⟨⟨m, howns⟩, ?_⟩
    cases assembled with
    | true => exact Nat.zero_le _
    | false => exact (h.inflight rfl).trans (Nat.le_add_left _ _)

/-- **`decode`** keeps the bound. -/
theorem decode_retains (fuel : Nat) :
    Call.Meets (Retains true) (decode cfg fuel packetBuffer) (fun _ => Retains true)
      fun _ _ => True := by
  refine decode_meets (L := fun _ => Retains) (P := fun assembled _ => RetainsPushed assembled)
    (fun d h => ?_) (fun pos flag _ d h => ?_) (fun assembled pos d h => h.refill d rfl)
    (fun pos flag _ d h => ?_) fun _ _ _ _ => trivial
  · obtain ⟨m, hm⟩ := h.owns
    obtain ⟨tx, dc, htx, hdc⟩ := hm.exists_buffers
    refine (decodeHeader_meets htx).mono (fun _ h => h) (fun r d' ho => ?_) (fun _ _ h => h) d rfl
    have := h.opened ho
    cases r <;> exact this
  · obtain ⟨m, hm⟩ := h.owns
    obtain ⟨tx, dc, htx, hdc⟩ := hm.exists_buffers
    refine (takeOption_meets htx hdc).mono (fun _ h => h) (fun r d' ho => ?_)
      (fun _ _ _ => trivial) d rfl
    have := h.outcome htx ho
    cases r <;> exact this
  · obtain ⟨m, hm⟩ := h.owns
    rw [finish_run]
    cases flag with
    | true => exact ⟨⟨_, (hm.pushInflight packetBuffer).flushed⟩, Nat.zero_le _⟩
    | false =>
      refine ⟨⟨_, hm.pushInflight packetBuffer⟩, ?_⟩
      show (d.inflight_buffers ++ [packetBuffer]).length ≤ d.last_part.toNat + 1
      rw [List.length_append]
      exact Nat.add_le_add_right h.inflight 1

/-- **Bounded retention**: after every run of `decode`, there is at most one buffer in flight more
than the number of the last part, hence never more than 256. -/
theorem inflight_le_of_path {available pkts : List (PacketBuffer B)} {d0 : PacketDecoder H B}
    (hstart : Starts cfg available d0) (hrun : StepPath (Decodes cfg) d0 pkts d) :
    d.inflight_buffers.length ≤ d.last_part.toNat + 1 ∧ d.inflight_buffers.length ≤ 256 := by
  have hnew : Retains true d0 := by
    refine ⟨⟨_, hstart.owns⟩, ?_⟩
    obtain ⟨dc, tx, rest, -, rfl⟩ := hstart.eq
    exact Nat.zero_le _
  have h := (hrun.invariant (fun _ _ _ h hd => hd.of_meets decode_retains h) hnew).inflight
  have hpart := d.last_part.toNat_lt
  rw [Bool.toNat_true] at h
  exact ⟨h, by omega⟩

/-- Two parts of a frame of four bytes, of one byte each. -/
theorem inflight_le_of_path_parts :
    let cfg := (Tunnel.smallestLZ4 (.inet 58023 #v[192, 0, 2, 1])).decoder fun _ => 0
    let datagram (sequence : UInt32) (part : UInt8) : List UInt8 :=
      (PacketEncoder.header sequence 1).bytes .little ++
        (PacketHeaderOption.mk PARTIAL_PACKET 4 NONE 1 part 0).bytes ++ [10]
    ∃ d0 d : PacketDecoder (List (List UInt8)) 1344, Starts cfg (PacketBuffer.fresh 0 10) d0 ∧
      StepPath (Decodes cfg) d0 [.ofData 20 (datagram 1 1) (by decide),
        .ofData 21 (datagram 2 2) (by decide)] d ∧ d.inflight_buffers.length = 2 ∧
      d.inflight_buffers.length ≤ d.last_part.toNat + 1 ∧ d.inflight_buffers.length ≤ 256 := by
  intro cfg datagram
  obtain ⟨⟨⟩, d, hrun, htwo⟩ := Call.exists_of_okAnd
    (p := fun d => d.inflight_buffers.length == 2)
    (r := (Tunnel.smallestLZ4 (.inet 58023 #v[192, 0, 2, 1])).decoderRun (fun _ => 0) 10
      (PacketBuffer.fresh 0 10) [.ofData 20 (datagram 1 1) (by decide),
        .ofData 21 (datagram 2 2) (by decide)]) (by decide +kernel)
  obtain ⟨d0, hstart, hpath⟩ := path_of_decoderRun hrun
  exact ⟨d0, d, hstart, hpath, beq_iff_eq.mp htwo, inflight_le_of_path hstart hpath⟩

end PacketDecoder

/-! ## The encoder -/

/-- **A history records** the blocks compressed since the last reset. -/
structure StreamCompressor.Records {H : Type} (C : StreamCompressor H)
    (blocks : H → List (List UInt8)) : Prop where
  reset : blocks C.reset = []
  compress : ∀ h x n, (C.compress h x n).result ≠ 0 →
    blocks (C.compress h x n).history = blocks h ++ [x]

theorem StreamCompressor.literals_records : literals.Records id where
  reset := rfl
  compress h x n hresult := by
    by_cases hfits : x.length < 13 ∧ x.length < n
    · simp only [literals, if_pos hfits, id_eq]
    · simp only [literals, if_neg hfits, ne_eq, not_true] at hresult

namespace PacketEncoder
variable {H : Type} {B : Nat} {cfg : EncoderConfig}

/-! ### Calls with any fuel -/

section Mono
variable {original_size fuel fuel' pos : Nat} {format : PacketHeaderOptionFormatType}
  {buf : PacketBuffer B} {part : UInt8} {e e' : PacketEncoder H B}

/-- A loop that ends does so with more fuel. -/
theorem partialLoop_mono
    (h : (partialLoop cfg original_size format buf fuel part pos).run e = .ok () e')
    (hle : fuel ≤ fuel') :
    (partialLoop cfg original_size format buf fuel' part pos).run e = .ok () e' := by
  induction fuel generalizing fuel' part pos e with
  | zero =>
    by_cases hpos : pos < buf.dataSize
    · unfold partialLoop at h
      rw [if_pos hpos] at h
      cases h
    · rw [partialLoop_done hpos] at h ⊢
      exact h
  | succ fuel ih =>
    obtain ⟨n, rfl⟩ : ∃ n, fuel' = n + 1 := ⟨fuel' - 1, by omega⟩
    by_cases hpos : pos < buf.dataSize
    · unfold partialLoop at h ⊢
      rw [if_pos hpos] at h ⊢
      obtain ⟨size, e1, h1, h2⟩ := Call.run_bind_eq_ok.mp h
      exact Call.run_bind_eq_ok.mpr ⟨size, e1, h1, ih h2 (Nat.le_of_succ_le_succ hle)⟩
    · rw [partialLoop_done hpos] at h ⊢
      exact h

theorem addPacket_mono (h : (addPacket cfg fuel original_size format buf).run e = .ok () e')
    (hle : fuel ≤ fuel') : (addPacket cfg fuel' original_size format buf).run e = .ok () e' := by
  obtain ⟨size, e1, h1, h2⟩ := Call.run_bind_eq_ok.mp h
  refine Call.run_bind_eq_ok.mpr ⟨size, e1, h1, ?_⟩
  by_cases hbig : buf.dataSize > size
  · rw [if_pos hbig] at h2 ⊢
    obtain ⟨u, e2, h2, h3⟩ := Call.run_bind_eq_ok.mp h2
    exact Call.run_bind_eq_ok.mpr ⟨u, e2, partialLoop_mono h2 hle, h3⟩
  · rw [if_neg hbig] at h2 ⊢
    exact h2

/-- A call that returns does so with more fuel. -/
theorem step_mono {op : Op B} (h : (step cfg fuel op).run e = .ok () e') (hle : fuel ≤ fuel') :
    (step cfg fuel' op).run e = .ok () e' := by
  cases op with
  | flush => exact h
  | encode raw =>
    simp only [step, encode] at h ⊢
    by_cases hbig : raw.dataSize % 65536 > cfg.l2mtu
    · rw [if_pos hbig] at h ⊢
      exact h
    · rw [if_neg hbig] at h ⊢
      obtain ⟨u, e1, h1, h2⟩ := Call.run_bind_eq_ok.mp h
      obtain ⟨r, e2, h2, h3⟩ := Call.run_bind_eq_ok.mp h2
      obtain ⟨v, e3, h3, h4⟩ := Call.run_bind_eq_ok.mp h3
      exact Call.run_bind_eq_ok.mpr ⟨u, e1, h1, Call.run_bind_eq_ok.mpr ⟨r, e2, h2,
        Call.run_bind_eq_ok.mpr ⟨v, e3, addPacket_mono h3 hle, h4⟩⟩⟩

end Mono

variable {T : Tunnel H} {s0 : UInt32} {e e' : PacketEncoder H T.B}

/-- A call that returns leaves the encoder between two calls. -/
theorem Idle.calls (hlib : Bounded T) {op : Op T.B} (h : Idle T s0 e) (hcall : Calls T.encoder e op e') :
    Idle T s0 e' ∧ e'.accepted = e.accepted ++ op.accepted T := by
  obtain ⟨fuel, hrun⟩ := hcall
  have hrun' := step_mono hrun (Nat.le_max_left fuel T.B)
  exact (step_meets hlib (Nat.le_max_right fuel T.B) e.accepted op).ok ⟨h, rfl⟩ hrun'

/-! ### What is compressed -/

/-- The buffers a call compresses: that of a frame which is accepted and for which the compressor does
not report 0. -/
def Op.compressed (T : Tunnel H) (e : PacketEncoder H T.B) : Op T.B → List (PacketBuffer T.B)
  | .encode raw =>
    match e.compressor with
    | some stream =>
      if raw.dataSize ≤ T.l2mtu ∧ (stream.lib.compress stream.history raw.data T.B).result ≠ 0 then [raw]
      else []
    | none => []
  | .flush => []

/-- A call that returns, beside a record of the buffers compressed so far. -/
def Compresses (T : Tunnel H) (s : PacketEncoder H T.B × List (PacketBuffer T.B)) (op : Op T.B)
    (s' : PacketEncoder H T.B × List (PacketBuffer T.B)) : Prop :=
  Calls T.encoder s.1 op s'.1 ∧ s'.2 = s.2 ++ op.compressed T s.1

theorem path_compresses {ops : List (Op T.B)} (h : StepPath (Calls T.encoder) e ops e')
    (record : List (PacketBuffer T.B)) :
    ∃ record', StepPath (Compresses T) (e, record) ops (e', record') := by
  induction h generalizing record with
  | nil e => exact ⟨record, .nil _⟩
  | cons hcall _ ih =>
    obtain ⟨record', hpath⟩ := ih _
    exact ⟨record', .cons ⟨hcall, rfl⟩ hpath⟩

theorem calls_of_path {s s' : PacketEncoder H T.B × List (PacketBuffer T.B)} {ops : List (Op T.B)}
    (h : StepPath (Compresses T) s ops s') : StepPath (Calls T.encoder) s.1 ops s'.1 := by
  induction h with
  | nil => exact .nil _
  | cons hstep _ ih => exact .cons hstep.1 ih

/-! ### The list in one call -/

/-- The list is emptied, or `raws` are put on it for one more option in `tx_buffer`, and the stream has
the history `history`. -/
def Adds (T : Tunnel H) (raws : List (PacketBuffer T.B)) (history : H) (e e' : PacketEncoder H T.B) :
    Prop :=
  e'.inflight_buffers = [] ∨ e'.inflight_buffers = e.inflight_buffers ++ raws ∧
    e'.compressor = some ⟨T.lib, history⟩ ∧ e'.packet_count = e.packet_count + 1

section
variable {e : PacketEncoder H B}

theorem _getMaxPayloadSize_same (size : Nat) :
    Call.Meets (· = e) (_getMaxPayloadSize cfg size) (fun _ e' => e' = e) Anything := by
  refine .bind_returns rfl ?_
  cases htx : e.tx_buffer with
  | none =>
    rintro _ -
    trivial
  | some tx =>
    refine .bind_returns (deref_some tx e) ?_
    exact .ite (fun _ => .returns rfl rfl) fun _ => .returns rfl rfl

theorem _flushInflight_empties {P : PacketEncoder H B → Prop} :
    Call.Meets P _flushInflight (fun _ e' => e'.inflight_buffers = []) Anything := by
  intro e _
  obtain ⟨pool, hrun⟩ := _flushInflight_run (e := e)
  rw [hrun]

/-- A packet in parts empties the list; a whole one is one option more. -/
theorem addPacket_inflight {fuel original_size : Nat} {format : PacketHeaderOptionFormatType}
    {buf : PacketBuffer B} :
    Call.Meets (· = e) (addPacket cfg fuel original_size format buf)
      (fun _ e' => e'.inflight_buffers = [] ∨ SameStream e e' ∧ e'.packet_count = e.packet_count + 1)
      Anything := by
  refine (_getMaxPayloadSize_same _).bind fun _ => .ite (fun _ => ?_) fun _ => ?_
  · refine (Call.Meets.trivial _).bind fun _ => _flushInflight_empties.mono (fun _ h => h)
      (fun _ _ h => Or.inl h) fun _ _ h => h
  · refine .bind_returns rfl ?_
    cases htx : e.tx_buffer with
    | none =>
      rintro _ -
      trivial
    | some tx =>
      refine .bind_returns (deref_some tx e) (.bind_ofExcept (fun tx1 _ => ?_) fun _ _ _ _ => trivial)
      refine .bind_ofExcept (fun tx2 _ => ?_) fun _ _ _ _ => trivial
      refine .bind_ofExcept (fun tx3 _ => ?_) fun _ _ _ _ => trivial
      exact .returns rfl (Or.inr ⟨⟨rfl, rfl, rfl, rfl, rfl⟩, rfl⟩)

theorem flushIfFull_inflight :
    Call.Meets (· = e) (flushIfFull cfg) (fun _ e' => e'.inflight_buffers = [] ∨ e' = e) Anything := by
  refine (_getMaxPayloadSize_same _).bind fun _ => .ite (fun _ => ?_) fun _ => ?_
  · exact (Call.Meets.trivial _).bind fun _ => _flushInflight_empties.mono (fun _ h => h)
      (fun _ _ h => Or.inl h) fun _ _ h => h
  · rintro _ rfl
    exact Or.inr rfl

theorem release_inflight (buf : PacketBuffer B) :
    Call.Meets (· = e) (release buf) (fun _ e' => e'.inflight_buffers = e.inflight_buffers ∧
      e'.compressor = e.compressor ∧ e'.packet_count = e.packet_count) Anything := by
  refine .bind_returns rfl (.ite (fun _ => .returns rfl ⟨rfl, rfl, rfl⟩) fun _ => ?_)
  exact .returns (pushAvailable_run buf e) ⟨rfl, rfl, rfl⟩

end

theorem compressPacket_inflight {raw : PacketBuffer T.B} {history : H}
    (hformat : e.packet_format = T.packet_format) (hn : T.packet_format ≠ NONE)
    (hstream : e.compressor = some ⟨T.lib, history⟩) :
    Call.Meets (· = e) (compressPacket raw raw.dataSize)
      (fun _ e' => e'.inflight_buffers = e.inflight_buffers ++
          (if (T.lib.compress history raw.data T.B).result ≠ 0 then [raw] else []) ∧
        e'.compressor = some ⟨T.lib, (T.lib.compress history raw.data T.B).history⟩ ∧
        e'.packet_count = e.packet_count) Anything := by
  refine .bind_returns rfl ?_
  rw [hformat, if_neg hn, hstream]
  refine .bind_returns (deref_some _ e) ?_
  cases hcomp : e.comp_buffer with
  | none =>
    rintro _ -
    trivial
  | some comp =>
    refine .bind_returns (deref_some comp e) ?_
    rw [raw.slice_zero_dataSize, PacketBuffer.getBufferSize_eq]
    refine .bind_ofExcept (fun comp1 _ => .bind_set (.ite (fun hresult => ?_) fun hresult => ?_))
      fun _ _ _ _ => trivial
    · refine .bind_ofExcept (fun buf _ => ?_) fun _ _ _ _ => trivial
      refine .bind_returns rfl (.bind_returns rfl (.returns rfl ⟨?_, rfl, rfl⟩))
      rw [if_pos hresult]
    · refine .returns rfl ⟨?_, rfl, rfl⟩
      rw [if_neg hresult, List.append_nil]

/-- **`encode` of an accepted frame** empties the list, or puts the buffer it compressed on it. -/
theorem encode_inflight {fuel : Nat} {raw : PacketBuffer T.B} {history : H}
    (hformat : e.packet_format = T.packet_format) (hn : T.packet_format ≠ NONE)
    (hstream : e.compressor = some ⟨T.lib, history⟩) (hraw : raw.dataSize ≤ T.l2mtu) :
    Call.Meets (· = e) (encode T.encoder fuel raw) (fun _ => Adds T (Op.compressed T e (.encode raw))
      (T.lib.compress history raw.data T.B).history e) Anything := by
  have hbounds := T.size_bounds
  have hsize : raw.dataSize % 65536 = raw.dataSize := by
    have := raw.dataSize_le
    exact Nat.mod_eq_of_lt (by omega)
  have hacc : ¬raw.dataSize > T.encoder.l2mtu := Nat.not_lt.mpr hraw
  simp only [encode, hsize, if_neg hacc, Op.compressed, hstream, hraw, true_and]
  refine .bind_returns rfl ?_
  refine (compressPacket_inflight (e := { e with accepted := e.accepted ++ [raw.data] }) hformat hn
    hstream).bind fun r e1 h1 => ?_
  obtain ⟨hlist, hstream1, hcount1⟩ := h1
  refine (addPacket_inflight.bind fun _ e2 h2 => (flushIfFull_inflight (e := e2)).bind
    (fun _ e3 h3 => ((release_inflight r.1).mono (fun _ h => h) (fun _ e4 h4 => ?_) fun _ _ h => h)
      e3 rfl) e2 rfl) e1 rfl
  obtain ⟨hlist4, hstream4, hcount4⟩ := h4
  rcases h3 with h3 | rfl
  · exact Or.inl (hlist4.trans h3)
  rcases h2 with h2 | ⟨hsame, hcount2⟩
  · exact Or.inl (hlist4.trans h2)
  · exact Or.inr ⟨hlist4.trans (hsame.inflight_buffers.trans hlist),
      hstream4.trans (hsame.compressor.trans hstream1), by rw [hcount4, hcount2, hcount1]⟩

/-! ### Runs -/

/-- **Between two calls**, for a record of the buffers compressed so far: the list has the last ones, as
many as there are blocks in the history, and there is an option in `tx_buffer` for each. -/
structure Sources (T : Tunnel H) (blocks : H → List (List UInt8)) (record : List (PacketBuffer T.B))
    (e : PacketEncoder H T.B) : Prop where
  stream : ∃ history, e.compressor = some ⟨T.lib, history⟩ ∧
    blocks history = e.inflight_buffers.map PacketBuffer.data ∧
    e.inflight_buffers = record.rtake (blocks history).length
  count : e.inflight_buffers.length ≤ e.packet_count

section
variable {blocks : H → List (List UInt8)} {record : List (PacketBuffer T.B)}

/-- An empty list goes with a stream that was reset. -/
theorem Idle.sources (hn : T.packet_format ≠ NONE) (hrec : T.lib.Records blocks) (h : Idle T s0 e)
    (hempty : e.inflight_buffers = []) : Sources T blocks record e := by
  obtain ⟨history, -, hs⟩ := h.stream
  have hreset : blocks history = [] := by rw [hs.inflight hempty, hrec.reset]
  refine ⟨⟨history, hs.compressor hn, ?_, ?_⟩, ?_⟩
  · rw [hreset, hempty, List.map_nil]
  · rw [hreset, hempty, List.length_nil, List.rtake_zero]
  · rw [hempty]
    exact Nat.zero_le _

/-- **One call** keeps the list as it is recorded. -/
theorem Sources.calls (hn : T.packet_format ≠ NONE) (hlib : Bounded T) (hrec : T.lib.Records blocks)
    {op : Op T.B} (h : Idle T s0 e) (hs : Sources T blocks record e) (hcall : Calls T.encoder e op e') :
    Sources T blocks (record ++ op.compressed T e) e' := by
  have hidle := (h.calls hlib hcall).1
  obtain ⟨fuel, hrun⟩ := hcall
  obtain ⟨⟨history, hstream, hblocks, hlist⟩, hcount⟩ := hs
  cases op with
  | flush =>
    refine hidle.sources hn hrec ?_
    exact ((Call.Meets.trivial (P := fun _ => True) _).bind fun _ => _flushInflight_empties).ok
      trivial hrun
  | encode raw =>
    by_cases hraw : raw.dataSize ≤ T.l2mtu
    · have hformat : e.packet_format = T.packet_format := by
        obtain ⟨_, -, hstreaming⟩ := h.stream
        exact hstreaming.packet_format
      rcases (encode_inflight hformat hn hstream hraw).ok rfl hrun with hempty | ⟨hadd, hstream', hcount'⟩
      · exact hidle.sources hn hrec hempty
      have hraws : Op.compressed T e (.encode raw) =
          if (T.lib.compress history raw.data T.B).result ≠ 0 then [raw] else [] := by
        simp only [Op.compressed, hstream, hraw, true_and]
      rw [hraws] at hadd ⊢
      by_cases hresult : (T.lib.compress history raw.data T.B).result = 0
      · -- the compressor failed, and its history is as before
        rw [if_neg (not_not.mpr hresult), List.append_nil] at hadd ⊢
        have hsame : (T.lib.compress history raw.data T.B).history = history := by
          rcases (hlib hn).result_eq history raw.data (by rw [raw.data_length]; exact hraw) with
            ⟨-, hsame⟩ | ⟨hpos, -⟩
          · exact hsame
          · omega
        rw [hsame] at hstream'
        refine ⟨⟨history, hstream', by rw [hadd, hblocks], by rw [hadd, hlist]⟩, ?_⟩
        rw [hadd, hcount']
        exact Nat.le_succ_of_le hcount
      · rw [if_pos hresult] at hadd ⊢
        have hnext := hrec.compress history raw.data T.B hresult
        refine ⟨⟨_, hstream', ?_, ?_⟩, ?_⟩
        · rw [hnext, hadd, hblocks, List.map_append, List.map_singleton]
        · rw [hnext, List.length_append, List.length_singleton, List.rtake_concat_succ, hadd, ← hlist]
        · rw [hadd, hcount', List.length_append, List.length_singleton]
          exact Nat.succ_le_succ hcount
    · -- the frame is refused
      have hbounds := T.size_bounds
      have hle := raw.dataSize_le
      have hbig : raw.dataSize > T.encoder.l2mtu := Nat.not_le.mp hraw
      simp only [step, encode, Nat.mod_eq_of_lt (show raw.dataSize < 65536 by omega), if_pos hbig,
        EStateM.run_bind, pushAvailable_run raw e, EStateM.run_pure] at hrun
      obtain ⟨-, rfl⟩ := EStateM.Result.ok.inj hrun
      have hraws : Op.compressed T e (.encode raw) = [] := by
        simp only [Op.compressed, hstream, hraw, false_and, if_false]
      rw [hraws, List.append_nil]
      exact ⟨⟨history, hstream, hblocks, hlist⟩, hcount⟩

end

theorem Starts.inflight_buffers {seq : UInt32} {available : List (PacketBuffer T.B)}
    (h : Starts T.libs T.packet_format seq available e) : e.inflight_buffers = [] := by
  have hbounds := T.size_bounds
  have hs8 : PacketHeader.size = 8 := rfl
  have hseq : Call.Meets (Fresh (H := H) (B := T.B)) (setSequence seq)
      (fun _ e => e.inflight_buffers = []) Anything := fun e h => h.inflight_buffers
  have hset : ∀ comp : Option (CompressionStream H), Call.Meets
      (fun e : PacketEncoder H T.B => e.inflight_buffers = [])
      (modify fun e => { e with compressor := comp }) (fun _ e => e.inflight_buffers = []) Anything :=
    fun _ _ he => he
  have hformat : Call.Meets (fun e : PacketEncoder H T.B => e.inflight_buffers = [])
      (setPacketFormat T.libs T.packet_format) (fun _ e => e.inflight_buffers = []) Anything := by
    refine Call.Meets.bind (Q := fun _ (e : PacketEncoder H T.B) => e.inflight_buffers = [])
      (fun _ he => he) fun _ => ?_
    exact .ite (fun _ => hset _) fun _ => .ite (fun _ => hset _) fun _ => .ite (fun _ => hset _)
      fun _ _ _ => trivial
  exact (((new_meets ⟨available⟩ (by omega)).mono (fun _ h => h) (fun _ _ h => h)
    fun _ _ _ => trivial).bind fun _ => hseq.bind fun _ => hformat).ok rfl h

theorem Idle.packet_count_le (h : Idle T s0 e) :
    e.packet_count ≤ (T.l4mtu - PacketHeader.size) / PacketHeaderOption.size := by
  obtain ⟨history, ⟨ds, pending, c0, hem, -⟩, -⟩ := h.stream
  have hlen := length_le_sizeOfRecords pending
  have hsize := hem.size_le
  have ho8 : PacketHeaderOption.size = 8 := rfl
  rw [ho8] at hlen ⊢
  rw [hem.packet_count]
  omega

/-- **The encoder keeps its sources**: the buffers compressed since the last reset, which the blocks in
the history of the compressor count, are those on the inflight list, with the contents that were
compressed; they are in no pool; and they are no more than the options in `tx_buffer`. -/
structure KeepsSources (T : Tunnel H) (blocks : H → List (List UInt8))
    (made given record : List (PacketBuffer T.B)) (e : PacketEncoder H T.B) : Prop where
  sources : ∃ history, e.compressor = some ⟨T.lib, history⟩ ∧
    e.inflight_buffers = record.rtake (blocks history).length ∧
    e.inflight_buffers.map PacketBuffer.data = blocks history ∧
    (history = T.lib.reset ↔ e.inflight_buffers = [])
  apart : (ids made + ids given).Nodup → ∀ b ∈ e.inflight_buffers,
    ∀ b' ∈ e.available_buffer_pool.pool ++ e.tx_buffer_pool.pool, b'.id ≠ b.id
  inflight_le : e.inflight_buffers.length ≤ e.packet_count
  packet_count_le : e.packet_count ≤ (T.l4mtu - PacketHeader.size) / PacketHeaderOption.size

/-- **After every run of an encoder of a compressed format** its sources are kept. -/
theorem keepsSources_of_path {blocks : H → List (List UInt8)} (hn : T.packet_format ≠ NONE)
    (hlib : T.lib.CompressBounded T.l2mtu T.B) (hrec : T.lib.Records blocks) {seq : UInt32}
    {made record : List (PacketBuffer T.B)} {ops : List (Op T.B)} {e0 : PacketEncoder H T.B}
    (hstart : Starts T.libs T.packet_format seq made e0)
    (hrun : StepPath (Compresses T) (e0, []) ops (e, record)) :
    KeepsSources T blocks made (ops.flatMap Op.buffers) record e := by
  have hnew : Idle T seq e0 ∧ Sources T blocks [] e0 := by
    exact ⟨hstart.idle, hstart.idle.sources hn hrec hstart.inflight_buffers⟩
  have h : Idle T seq e ∧ Sources T blocks record e := by
    refine hrun.invariant (I := fun s => Idle T seq s.1 ∧ Sources T blocks s.2 s.1) ?_ hnew
    rintro ⟨e1, record1⟩ op ⟨e2, record2⟩ ⟨hidle, hs⟩ ⟨hcall, hrecord⟩
    rw [show record2 = record1 ++ op.compressed T e1 from hrecord]
    exact ⟨(hidle.calls (fun _ => hlib) hcall).1, hs.calls hn (fun _ => hlib) hrec hidle hcall⟩
  obtain ⟨hidle, ⟨history, hstream, hblocks, hlist⟩, hcount⟩ := h
  refine ⟨⟨history, hstream, hlist, hblocks.symm, ?_⟩, fun honce b hb b' hb' => ?_, hcount,
    hidle.packet_count_le⟩
  · constructor
    · rintro rfl
      rw [hrec.reset] at hblocks
      exact List.map_eq_nil_iff.mp hblocks.symm
    · intro hempty
      obtain ⟨history', -, hs⟩ := hidle.stream
      have hsame := hstream.symm.trans (hs.compressor hn)
      simp only [Option.some.injEq, CompressionStream.mk.injEq, true_and] at hsame
      rw [hsame]
      exact hs.inflight hempty
  · have howns := hstart.owns_of_path (calls_of_path hrun)
    rw [← howns.held, held] at honce
    have hb1 : b.id ∈ ids e.inflight_buffers := Multiset.mem_coe.mpr (List.mem_map_of_mem hb)
    have hb2 : b'.id ∈ ids e.available_buffer_pool.pool + ids e.tx_buffer_pool.pool := by
      rw [← ids_append]
      exact Multiset.mem_coe.mpr (List.mem_map_of_mem hb')
    intro hsame
    refine Multiset.disjoint_left.mp (Multiset.nodup_add.mp honce).2.2 ?_ hb1
    rw [← hsame]
    exact Multiset.mem_add.mpr (Or.inl (Multiset.mem_add.mpr (Or.inl hb2)))

/-- Two frames with LZ4, of which it compresses the first. -/
theorem keepsSources_of_path_lz4 :
    let T := Tunnel.smallestLZ4 (.inet 58023 #v[192, 0, 2, 1])
    let frames : List (PacketBuffer T.B) :=
      [.ofData 20 [1, 2, 3] (by decide), .ofData 21 (List.replicate 60 0) (by decide)]
    ∃ (e : PacketEncoder (List (List UInt8)) T.B) (record : List (PacketBuffer T.B)),
      e.inflight_buffers.length = 1 ∧
      KeepsSources T id (PacketBuffer.fresh 0 10)
        ((frames.map Op.encode).flatMap Op.buffers) record e := by
  intro T frames
  obtain ⟨⟨⟩, e, hrun, hone⟩ := Call.exists_of_okAnd (p := fun e => e.inflight_buffers.length == 1)
    (r := T.encoderRun 10 1 (PacketBuffer.fresh 0 10) (frames.map .encode)) (by decide +kernel)
  obtain ⟨e0, hstart, hpath⟩ := path_of_encoderRun hrun
  obtain ⟨record, hpath⟩ := path_compresses hpath []
  exact ⟨e, record, beq_iff_eq.mp hone, keepsSources_of_path (T := T) (by decide)
    (StreamCompressor.literals_lossless _ _).toCompressBounded StreamCompressor.literals_records hstart
    hpath⟩

end PacketEncoder
end SuperEthd
