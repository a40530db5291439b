import SuperEthd.OptionLoop

/-! # Whether the loop over the payloads ends

The position is a `uint16_t`, moved on by a length that the datagram says.  An option whose
type is not handled leaves it where it is, and the length of a part that is skipped is not
checked, so the position may wrap.  Nothing else keeps `decode` from returning. -/
namespace SuperEthd
open PacketHeaderOptionType PacketHeaderOptionFormatType

/-- The position that the loop goes on to, perhaps after it waited for a new `tx_buffer`. -/
def PacketDecoder.Progress.next : PacketDecoder.Progress → Option Nat
  | .refused => none
  | .onto pos _ => some pos
  | .delivered _ pos => some pos

namespace PacketDecoder
variable {H : Type} {B : Nat} (cfg : DecoderConfig H)

/-- **The loop gets on** with the datagram, and ends. -/
structure GetsOn (d : PacketDecoder H B) (packetBuffer : PacketBuffer B) : Prop where
  /-- an option is refused, or the loop goes on behind its payload, without a wrap -/
  advances : ∀ pos flag d1 r d2 pos', Reaches cfg packetBuffer d pos flag d1 →
    pos < packetBuffer.dataSize → (takeOption cfg packetBuffer pos flag).run d1 = .ok r d2 →
    r.next = some pos' → pos < pos' ∧
      pos' = pos + PacketHeaderOption.size + (optionAt cfg packetBuffer pos).payload_length
  /-- `decode` returns, or waits since the pool had fewer buffers than the datagram has bytes -/
  returns : ∀ fuel, packetBuffer.dataSize ≤ fuel →
    (∃ d', (decode cfg fuel packetBuffer).run d = .ok () d') ∨
    (∃ d', (decode cfg fuel packetBuffer).run d = .error .blocked d') ∧
      d.available_buffer_pool.pool.length < packetBuffer.dataSize

/-- No branch of the loop is for options of this type. -/
def Unhandled (option : PacketHeaderOption) : Prop :=
  option.type ≠ COMPLETE_PACKET ∧ option.typeIsPartial = false

/-- **What the loop is stuck at**: an option that passes its checks and is of a type that is not
handled, or says a length with which the position wraps. -/
def Stuck (packetBuffer : PacketBuffer B) (pos : Nat) (d : PacketDecoder H B) : Prop :=
  let option := optionAt cfg packetBuffer pos
  Passes cfg packetBuffer option pos d ∧
    (Unhandled option ∨ 65536 ≤ pos + PacketHeaderOption.size + option.payload_length)

variable {cfg} {d d' : PacketDecoder H B} {packetBuffer : PacketBuffer B} {pos pos' : Nat} {flag : Bool}
  {option : PacketHeaderOption} {tx : PacketBuffer B} {r : Progress}

theorem nextPos_eq (h : pos + PacketHeaderOption.size + option.payload_length < 65536) :
    nextPos option pos = pos + PacketHeaderOption.size + option.payload_length := by
  rw [nextPos, Nat.mod_eq_of_lt (Nat.lt_of_le_of_lt (Nat.le_add_right _ _) h), Nat.mod_eq_of_lt h]

/-- The length of a part that is skipped is not checked: this one leads back to its own position. -/
example : nextPos ⟨PARTIAL_PACKET, 100, NONE, 65528, 2, 0⟩ 8 = 8 := by decide

theorem nextPos_lt : nextPos option pos < 65536 := Nat.mod_lt _ (by decide)

/-- An option of a type that is not handled leaves the position, every other moves it on. -/
theorem Outcome.next (h : Outcome cfg packetBuffer pos flag option tx d r d')
    (hnext : r.next = some pos') :
    Unhandled option ∧ pos' = pos ∨ ¬Unhandled option ∧ pos' = nextPos option pos := by
  cases h with
  | refused => cases hnext
  | ignored htype hpart => exact Or.inl ⟨⟨htype, hpart⟩, (Option.some.inj hnext).symm⟩
  | skipped _ hpart =>
    exact Or.inr ⟨fun hun => absurd (hpart.symm.trans hun.2) Bool.noConfusion,
      (Option.some.inj hnext).symm⟩
  | kept _ hpart =>
    exact Or.inr ⟨fun hun => absurd (hpart.symm.trans hun.2) Bool.noConfusion,
      (Option.some.inj hnext).symm⟩
  | delivered _ hused =>
    refine Or.inr ⟨fun hun => ?_, (Option.some.inj hnext).symm⟩
    rcases hused with htype | ⟨hpart, -⟩
    · exact hun.1 htype
    · exact absurd (hpart.symm.trans hun.2) Bool.noConfusion

variable (cfg option) in
theorem begun_pool_le : d.available_buffer_pool.pool.length ≤
    (d.begun cfg option).available_buffer_pool.pool.length := by
  unfold begun
  split
  · exact (List.length_append ▸ Nat.le_add_right _ _)
  · exact Nat.le_refl _

/-- An option takes no free buffer. -/
theorem Outcome.pool_le (h : Outcome cfg packetBuffer pos flag option tx d r d') :
    d.available_buffer_pool.pool.length ≤ d'.available_buffer_pool.pool.length := by
  cases h with
  | refused htried =>
    refine (begun_pool_le cfg option).trans (htried.available_buffer_pool ▸ ?_)
    exact List.length_append ▸ Nat.le_add_right _ _
  | ignored => exact Nat.le_refl _
  | skipped => exact List.length_append ▸ Nat.le_add_right _ _
  | kept => exact Nat.le_refl _
  | delivered _ _ htried =>
    exact (begun_pool_le cfg option).trans (htried.available_buffer_pool ▸ Nat.le_refl _)

variable (cfg) in
/-- A new `tx_buffer` is one free buffer less, unless there is none. -/
theorem refill_pool (whole : Bool) (d : PacketDecoder H B) :
    (refill cfg whole).run d = .error .blocked d ∧ d.available_buffer_pool.pool.length = 0 ∨
    ∃ d', (refill cfg whole).run d = .ok () d' ∧
      d.available_buffer_pool.pool.length ≤ d'.available_buffer_pool.pool.length + 1 := by
  rcases _getTxBuffer_run (d := d) with ⟨hempty, hget⟩ | ⟨b, rest, hpool, hget⟩
  · left
    simp only [refill, EStateM.run_bind, hget, hempty, List.length_nil, and_self]
  · right
    cases whole with
    | true =>
      refine ⟨_, (Call.run_bind_of_ok hget).trans _flushInflight_run, ?_⟩
      simp only [hpool, flushed, resetStreams, cleared, List.length_cons, List.length_append]
      omega
    | false =>
      refine ⟨_, Call.run_bind_of_ok hget, ?_⟩
      rw [hpool]
      exact Nat.le_refl _

/-! ## One option -/

/-- What an option that is not refused does with the position. -/
theorem Sized.takeOption_next (h : Sized cfg d)
    (hrun : (PacketDecoder.takeOption cfg packetBuffer pos flag).run d = .ok r d')
    (hnext : r.next = some pos') :
    d.available_buffer_pool.pool.length ≤ d'.available_buffer_pool.pool.length ∧
      (Unhandled (optionAt cfg packetBuffer pos) ∧ pos' = pos ∨
        ¬Unhandled (optionAt cfg packetBuffer pos) ∧
          pos' = nextPos (optionAt cfg packetBuffer pos) pos) := by
  obtain ⟨tx, htx, -⟩ := h.tx_buffer
  obtain ⟨dc, hdc⟩ := Option.isSome_iff_exists.mp h.dcomp_buffer
  have ho := (takeOption_meets htx hdc).ok rfl hrun
  exact ⟨ho.pool_le, ho.next hnext⟩

/-- **The loop goes on behind the payload** of an option that it is not stuck at. -/
theorem Sized.takeOption_advances (h : Sized cfg d) (hlibs : LibsBounded cfg B)
    (hstuck : ¬Stuck cfg packetBuffer pos d)
    (hrun : (PacketDecoder.takeOption cfg packetBuffer pos flag).run d = .ok r d')
    (hnext : r.next = some pos') : pos < pos' ∧
      pos' = pos + PacketHeaderOption.size + (optionAt cfg packetBuffer pos).payload_length := by
  obtain ⟨r1, d1, hrun1, hiff⟩ := h.takeOption hlibs packetBuffer pos flag
  rw [hrun] at hrun1
  obtain ⟨rfl, rfl⟩ := EStateM.Result.ok.inj hrun1
  have hpasses : Passes cfg packetBuffer (optionAt cfg packetBuffer pos) pos d := by
    by_contra hfails
    rw [hiff.mpr hfails] at hnext
    cases hnext
  have hnowrap : ¬65536 ≤ pos + PacketHeaderOption.size +
      (optionAt cfg packetBuffer pos).payload_length := fun hwrap =>
    hstuck ⟨hpasses, Or.inr hwrap⟩
  rcases (h.takeOption_next hrun hnext).2 with ⟨hun, -⟩ | ⟨-, rfl⟩
  · exact absurd ⟨hpasses, Or.inl hun⟩ hstuck
  · rw [nextPos_eq (Nat.lt_of_not_le hnowrap)]
    exact ⟨by simp only [PacketHeaderOption.size]; omega, rfl⟩

/-- **An option that the loop is stuck at** leaves the position, or wraps it. -/
theorem Stuck.takeOption (hstuck : Stuck cfg packetBuffer pos d) (h : Sized cfg d)
    (hlibs : LibsBounded cfg B) (flag : Bool) :
    ∃ r d' pos', (PacketDecoder.takeOption cfg packetBuffer pos flag).run d = .ok r d' ∧
      r.next = some pos' ∧ ¬(pos < pos' ∧
        pos' = pos + PacketHeaderOption.size + (optionAt cfg packetBuffer pos).payload_length) := by
  obtain ⟨hpasses, hwhy⟩ := hstuck
  obtain ⟨r, d', hrun, hiff⟩ := h.takeOption hlibs packetBuffer pos flag
  obtain ⟨pos', hnext⟩ : ∃ pos', r.next = some pos' := by
    cases r with
    | refused => exact absurd hpasses (hiff.mp rfl)
    | onto pos' => exact ⟨pos', rfl⟩
    | delivered _ pos' => exact ⟨pos', rfl⟩
  refine ⟨r, d', pos', hrun, hnext, fun hadv => ?_⟩
  rcases (h.takeOption_next hrun hnext).2 with ⟨-, rfl⟩ | ⟨hun, rfl⟩
  · exact Nat.lt_irrefl _ hadv.1
  · have hlt : nextPos (optionAt cfg packetBuffer pos) pos < 65536 := nextPos_lt
    have := hwhy.resolve_left hun
    omega

/-- The body of the loop, before an option that it is not stuck at: the packet is refused, or the
loop gets on with one buffer less at most, or the pool is empty. -/
theorem Sized.decodeOption_advances (h : Sized cfg d) (hlibs : LibsBounded cfg B)
    (hstuck : ¬Stuck cfg packetBuffer pos d) (flag : Bool) :
    (∃ d', (decodeOption cfg packetBuffer pos flag).run d = .ok none d') ∨
    (∃ pos' flag' d', (decodeOption cfg packetBuffer pos flag).run d = .ok (some (pos', flag')) d' ∧
      pos < pos' ∧
      d.available_buffer_pool.pool.length ≤ d'.available_buffer_pool.pool.length + 1) ∨
    (∃ d', (decodeOption cfg packetBuffer pos flag).run d = .error .blocked d') ∧
      d.available_buffer_pool.pool.length = 0 := by
  obtain ⟨r, d1, hrun, -⟩ := h.takeOption hlibs packetBuffer pos flag
  have hadv : ∀ pos', r.next = some pos' → pos < pos' := fun _ hnext =>
    (h.takeOption_advances hlibs hstuck hrun hnext).1
  have hpool : ∀ pos', r.next = some pos' →
      d.available_buffer_pool.pool.length ≤ d1.available_buffer_pool.pool.length :=
    fun _ hnext => (h.takeOption_next hrun hnext).1
  cases r with
  | refused => exact Or.inl ⟨d1, Call.run_bind_of_ok hrun⟩
  | onto pos' flag' =>
    exact Or.inr (Or.inl ⟨pos', flag', d1, Call.run_bind_of_ok hrun, hadv pos' rfl,
      (hpool pos' rfl).trans (Nat.le_succ _)⟩)
  | delivered whole pos' =>
    have hle := hpool pos' rfl
    rcases refill_pool cfg whole d1 with ⟨hblocked, hempty⟩ | ⟨d2, hrefill, hlen⟩
    · refine Or.inr (Or.inr ⟨⟨d1, ?_⟩, by omega⟩)
      simp only [decodeOption, EStateM.run_bind, hrun, hblocked]
    · refine Or.inr (Or.inl ⟨pos', !whole, d2, ?_, hadv pos' rfl, by omega⟩)
      simp only [decodeOption, EStateM.run_bind, hrun, hrefill, EStateM.run_pure]

/-! ## The loop -/

/-- **The loop ends**, if it is not stuck at any option that is reached: each takes one byte at least,
and one free buffer at most. -/
theorem optionLoop_ends {d0 : PacketDecoder H B} (hd0 : Sized cfg d0) (hlibs : LibsBounded cfg B)
    (hstuck : ∀ pos flag d, Reaches cfg packetBuffer d0 pos flag d → pos < packetBuffer.dataSize →
      ¬Stuck cfg packetBuffer pos d) (fuel : Nat)
    (hreach : Reaches cfg packetBuffer d0 pos flag d) (hfuel : packetBuffer.dataSize ≤ pos + fuel) :
    (∃ r d', (optionLoop cfg packetBuffer fuel pos flag).run d = .ok r d') ∨
    (∃ d', (optionLoop cfg packetBuffer fuel pos flag).run d = .error .blocked d') ∧
      d.available_buffer_pool.pool.length + pos < packetBuffer.dataSize := by
  induction fuel generalizing pos flag d with
  | zero =>
    have hpos : ¬pos < packetBuffer.dataSize := Nat.not_lt_of_ge hfuel
    unfold optionLoop
    rw [if_neg hpos]
    exact Or.inl ⟨_, _, rfl⟩
  | succ fuel ih =>
    unfold optionLoop
    split
    case isFalse => exact Or.inl ⟨_, _, rfl⟩
    case isTrue hpos =>
      rcases (hreach.sized hlibs hd0).decodeOption_advances hlibs (hstuck pos flag d hreach hpos) flag
        with ⟨d1, hrun⟩ | ⟨pos', flag', d1, hrun, hlt, hpool⟩ | ⟨⟨d1, hrun⟩, hpool⟩
      · exact Or.inl ⟨none, d1, Call.run_bind_of_ok hrun⟩
      · rw [Call.run_bind_of_ok hrun]
        rcases ih (hreach.next hpos hrun) (by omega) with hends | ⟨hends, hlen⟩
        · exact Or.inl hends
        · exact Or.inr ⟨hends, by omega⟩
      · refine Or.inr ⟨⟨d1, ?_⟩, by omega⟩
        rw [EStateM.run_bind, hrun]

/-- **`decode` ends**, if its loop is not stuck at any option that is reached. -/
theorem decode_ends (h : Sized cfg d) (hlibs : LibsBounded cfg B)
    (hstuck : ∀ pos flag d1, Reaches cfg packetBuffer d pos flag d1 → pos < packetBuffer.dataSize →
      ¬Stuck cfg packetBuffer pos d1) {fuel : Nat} (hfuel : packetBuffer.dataSize ≤ fuel) :
    (∃ d', (decode cfg fuel packetBuffer).run d = .ok () d') ∨
    (∃ d', (decode cfg fuel packetBuffer).run d = .error .blocked d') ∧
      d.available_buffer_pool.pool.length < packetBuffer.dataSize := by
  obtain ⟨tx, htx, -⟩ := h.tx_buffer
  have hheader : Call.Meets (· = d) (decodeHeader cfg packetBuffer)
      (Opened cfg packetBuffer d) fun _ _ => False := decodeHeader_meets htx
  rcases hheader.of_run rfl with ⟨r, d1, hrun, ho⟩ | ⟨x, d1, -, hfalse⟩
  · cases ho with
    | short => exact Or.inl ⟨_, Call.run_bind_of_ok hrun⟩
    | refused => exact Or.inl ⟨_, Call.run_bind_of_ok hrun⟩
    | passed =>
      have hpool : d.available_buffer_pool.pool.length ≤
          (d.arrived cfg (headerOf cfg packetBuffer).sequence).available_buffer_pool.pool.length := by
        unfold arrived
        split
        · exact Nat.le_refl _
        · exact List.length_append ▸ Nat.le_add_right _ _
      rcases optionLoop_ends h hlibs hstuck fuel (.first hrun) (by omega) with
        ⟨r, d2, hloop⟩ | ⟨⟨d2, hloop⟩, hlen⟩
      · left
        simp only [decode, EStateM.run_bind, hrun, hloop]
        cases r with
        | none => exact ⟨d2, rfl⟩
        | some flag => exact ⟨_, finish_run flag⟩
      · refine Or.inr ⟨⟨d2, ?_⟩, by omega⟩
        simp only [decode, EStateM.run_bind, hrun, hloop]
  · exact hfalse.elim

/-- **The loop gets on with a datagram** exactly when it is not stuck at any option that it comes to. -/
theorem getsOn_iff (hlibs : LibsBounded cfg B) {available pkts : List (PacketBuffer B)}
    {d0 : PacketDecoder H B} (hstart : Starts cfg available d0)
    (hrun : StepPath (Decodes cfg) d0 pkts d) (packetBuffer : PacketBuffer B) :
    GetsOn cfg d packetBuffer ↔ ∀ pos flag d1, Reaches cfg packetBuffer d pos flag d1 →
      pos < packetBuffer.dataSize → ¬Stuck cfg packetBuffer pos d1 := by
  have h : Sized cfg d :=
    hrun.invariant (fun _ _ _ h hd => hd.of_meets (decode_sized hlibs) h) hstart.sized
  constructor
  · intro hgets pos flag d1 hreach hpos hstuck
    obtain ⟨r, d2, pos', htake, hnext, hnot⟩ := hstuck.takeOption (hreach.sized hlibs h) hlibs flag
    exact hnot (hgets.advances pos flag d1 r d2 pos' hreach hpos htake hnext)
  · intro hstuck
    refine ⟨fun pos flag d1 r d2 pos' hreach hpos htake hnext => ?_, fun fuel hfuel =>
      decode_ends h hlibs hstuck hfuel⟩
    exact (hreach.sized hlibs h).takeOption_advances hlibs (hstuck pos flag d1 hreach hpos) htake hnext

/-- A frame of four bytes, then the second part of a frame whose first part is lost. -/
theorem getsOn_iff_skipped :
    let cfg := (Tunnel.smallestLZ4 (.inet 58023 #v[192, 0, 2, 1])).decoder fun _ => 0
    let datagram : PacketBuffer 1344 := .ofData 20 ((PacketEncoder.header 1 1).bytes .little ++
      (PacketHeaderOption.mk COMPLETE_PACKET 4 NONE 4 0 0).bytes ++ [10, 20, 30, 40] ++
      (PacketHeaderOption.mk PARTIAL_PACKET 100 NONE 2 2 0).bytes ++ [50, 60]) (by decide)
    ∃ d0 : PacketDecoder (List (List UInt8)) 1344, Starts cfg (PacketBuffer.fresh 0 10) d0 ∧
      (GetsOn cfg d0 datagram ↔ ∀ pos flag d1, Reaches cfg datagram d0 pos flag d1 →
        pos < datagram.dataSize → ¬Stuck cfg datagram pos d1) := by
  intro cfg datagram
  obtain ⟨⟨⟩, d, hrun, -⟩ := Call.exists_of_okAnd (p := fun _ => true)
    (r := (Tunnel.smallestLZ4 (.inet 58023 #v[192, 0, 2, 1])).decoderRun (fun _ => 0) 10
      (PacketBuffer.fresh 0 10) []) (by decide +kernel)
  obtain ⟨d0, hstart, -⟩ := path_of_decoderRun hrun
  exact ⟨d0, hstart, getsOn_iff ⟨StreamCompressor.literals_decompressBounded _,
    StreamCompressor.literals_decompressBounded _⟩ hstart (.nil d0) datagram⟩

/-- An option of a type that is not handled leaves position and state as they are. -/
theorem decodeOption_unhandled (hsize : (optionAt cfg packetBuffer pos).packet_size ≤ cfg.l2mtu)
    (hun : Unhandled (optionAt cfg packetBuffer pos)) :
    (decodeOption cfg packetBuffer pos flag).run d = .ok (some (pos, flag)) d := by
  have htake : (takeOption cfg packetBuffer pos flag).run d = .ok (.onto pos flag) d := by
    simp only [takeOption, if_neg (Nat.not_lt_of_ge hsize), if_neg hun.1, hun.2, Bool.false_eq_true,
      if_false, EStateM.run_pure, gt_iff_lt]
  exact Call.run_bind_of_ok htake

/-- It is looked at for ever. -/
theorem optionLoop_unhandled (hpos : pos < packetBuffer.dataSize)
    (hsize : (optionAt cfg packetBuffer pos).packet_size ≤ cfg.l2mtu)
    (hun : Unhandled (optionAt cfg packetBuffer pos)) (fuel : Nat) :
    (optionLoop cfg packetBuffer fuel pos flag).run d = .error .running d := by
  induction fuel with
  | zero =>
    unfold optionLoop
    rw [if_pos hpos]
    rfl
  | succ fuel ih =>
    unfold optionLoop
    rw [if_pos hpos]
    exact (Call.run_bind_of_ok (decodeOption_unhandled hsize hun)).trans ih

/-- A datagram whose header and first option are valid for the loop over the header options, but the
option is of a type that is not handled. -/
theorem decode_unhandled (htx : d.tx_buffer = some tx)
    (hlong : PacketHeader.size < packetBuffer.dataSize)
    (hvalid : HeaderValid (headerOf cfg packetBuffer)) (hfirst : FirstOptionValid cfg packetBuffer)
    (hsize : (optionAt cfg packetBuffer PacketHeader.size).packet_size ≤ cfg.l2mtu)
    (hun : Unhandled (optionAt cfg packetBuffer PacketHeader.size)) (fuel : Nat) :
    ∃ d', (decode cfg fuel packetBuffer).run d = .error .running d' := by
  refine ⟨d.arrived cfg (headerOf cfg packetBuffer).sequence, ?_⟩
  simp only [decode, EStateM.run_bind, decodeHeader_passed htx (Nat.le_of_lt hlong) hvalid hfirst,
    optionLoop_unhandled hlong hsize hun fuel]

/-- **An option of type zero** is valid for the loop over the header options, and the loop over the
payloads never leaves it. -/
theorem unhandled_option_runs_on :
    let cfg := (Tunnel.smallestLZ4 (.inet 58023 #v[192, 0, 2, 1])).decoder fun _ => 0
    let datagram : PacketBuffer 1344 := .ofData 20 ((PacketEncoder.header 1 1).bytes .little ++
      (PacketHeaderOption.mk 0 0 NONE 0 0 0).bytes) (by decide)
    ∃ d0 : PacketDecoder (List (List UInt8)) 1344, Starts cfg (PacketBuffer.fresh 0 10) d0 ∧
      (∀ fuel, ∃ d', (decode cfg fuel datagram).run d0 = .error .running d') ∧
      ¬GetsOn cfg d0 datagram := by
  intro cfg datagram
  obtain ⟨⟨⟩, d, hrun, -⟩ := Call.exists_of_okAnd (p := fun _ => true)
    (r := (Tunnel.smallestLZ4 (.inet 58023 #v[192, 0, 2, 1])).decoderRun (fun _ => 0) 10
      (PacketBuffer.fresh 0 10) []) (by decide +kernel)
  obtain ⟨d0, hstart, -⟩ := path_of_decoderRun hrun
  obtain ⟨tx, htx, -⟩ := hstart.sized.tx_buffer
  have hruns : ∀ fuel, ∃ d', (decode cfg fuel datagram).run d0 = .error .running d' :=
    decode_unhandled htx (by decide) (by decide +kernel) (by decide +kernel) (by decide +kernel)
      ⟨by decide +kernel, by decide +kernel⟩
  refine ⟨d0, hstart, hruns, fun hgets => ?_⟩
  obtain ⟨d', hrun'⟩ := hruns datagram.dataSize
  rcases hgets.returns datagram.dataSize (Nat.le_refl _) with ⟨d1, h⟩ | ⟨⟨d1, h⟩, -⟩
  · rw [hrun'] at h
    cases h
  · rw [hrun'] at h
    cases h

end PacketDecoder
end SuperEthd
