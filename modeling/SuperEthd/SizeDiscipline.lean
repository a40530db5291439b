import SuperEthd.DecoderSteps

/-! # Sizes under arbitrary datagrams

Whatever datagrams come, the frames the decoder delivers have the size their options say, and
no call writes past a buffer or throws: a `tx_buffer` without pending parts is empty, so a
payload always fits. -/
namespace SuperEthd
open PacketHeaderOptionType PacketHeaderOptionFormatType

namespace PacketDecoder
variable {H : Type} {B : Nat} {cfg : DecoderConfig H} {d d' : PacketDecoder H B}
  {packetBuffer : PacketBuffer B}

/-- **The sizes are as the options say**: each delivered frame has the size that the option which
completed it says, and is no larger than `l2mtu`; `tx_buffer` holds no more than its storage. -/
structure Disciplined (cfg : DecoderConfig H) (d : PacketDecoder H B) : Prop where
  delivered : List.Forall₂
    (fun frame option => frame.dataSize = option.packet_size ∧ frame.dataSize ≤ cfg.l2mtu)
    d.tx_buffer_pool.pool d.completedBy
  tx_buffer : ∀ tx ∈ d.tx_buffer, tx.dataSize ≤ B

/-- The invariant behind it, between two options and between two calls: `tx_buffer` is empty when no
part is pending. -/
structure Sized (cfg : DecoderConfig H) (d : PacketDecoder H B) : Prop where
  disciplined : Disciplined cfg d
  dcomp_buffer : d.dcomp_buffer.isSome
  tx_buffer : ∃ tx, d.tx_buffer = some tx ∧ (d.last_part = 0 → tx.dataSize = 0)

theorem Disciplined.congr (h : Disciplined cfg d) (hpool : d'.tx_buffer_pool = d.tx_buffer_pool)
    (hby : d'.completedBy = d.completedBy) : Disciplined cfg d' :=
  ⟨by rw [hpool, hby]; exact h.delivered, fun tx _ => tx.dataSize_le⟩

theorem Sized.congr (h : Sized cfg d) (hpool : d'.tx_buffer_pool = d.tx_buffer_pool)
    (hby : d'.completedBy = d.completedBy) (hdc : d'.dcomp_buffer = d.dcomp_buffer)
    (htx : d'.tx_buffer = d.tx_buffer) (hpart : d'.last_part = d.last_part) : Sized cfg d' :=
  ⟨h.disciplined.congr hpool hby, hdc ▸ h.dcomp_buffer, by rw [htx, hpart]; exact h.tx_buffer⟩

/-- A state that was cleared is `Sized`. -/
theorem Disciplined.cleared (h : Disciplined cfg d) (hdc : d.dcomp_buffer.isSome)
    (htx : d.tx_buffer.isSome) : Sized cfg d.cleared := by
  obtain ⟨tx, htx⟩ := Option.isSome_iff_exists.mp htx
  exact ⟨h.congr rfl rfl, hdc, tx.clear, congrArg (Option.map PacketBuffer.clear) htx, fun _ => rfl⟩

theorem Sized.flushed (h : Sized cfg d) : Sized cfg (d.flushed cfg) :=
  h.congr rfl rfl rfl rfl rfl

theorem Sized.refusing (h : Disciplined cfg d) (hdc : d.dcomp_buffer.isSome)
    (htx : d.tx_buffer.isSome) : Sized cfg (d.refusing cfg packetBuffer) :=
  ((h.cleared hdc htx).congr rfl rfl rfl rfl rfl : Sized cfg { d.cleared with
    inflight_buffers := d.inflight_buffers ++ [packetBuffer] }).flushed

theorem Sized.dropped (h : Sized cfg d) : Sized cfg (d.cleared.flushed cfg) := by
  obtain ⟨tx, htx, -⟩ := h.tx_buffer
  exact (h.disciplined.cleared h.dcomp_buffer (htx ▸ rfl)).flushed

theorem Sized.sizesOk (h : Sized cfg d) (hlibs : LibsBounded cfg B) : SizesOk cfg d := by
  obtain ⟨tx, htx, h0⟩ := h.tx_buffer
  refine ⟨hlibs, fun tx' hlast htx' => ?_⟩
  obtain rfl : tx = tx' := Option.some.inj (htx.symm.trans htx')
  exact h0 hlast

/-- Trying a record delivers nothing. -/
theorem Disciplined.tried {format : PacketHeaderOptionFormatType} (h : Disciplined cfg d)
    (htried : Tried format d d') : Disciplined cfg d' :=
  h.congr htried.tx_buffer_pool htried.completedBy

theorem Sized.begun (h : Sized cfg d) (option : PacketHeaderOption) :
    Sized cfg (d.begun cfg option) := by
  unfold PacketDecoder.begun
  split
  · exact h.dropped
  · exact h

/-- **A header** keeps the sizes. -/
theorem Sized.opened {r : Option Nat} (h : Sized cfg d) (ho : Opened cfg packetBuffer d r d') :
    Sized cfg d' := by
  have harrived : ∀ sequence, Sized cfg (d.arrived cfg sequence) := fun sequence => by
    have h' : Sized cfg (if d.goesOn sequence then d else d.cleared.flushed cfg) := by
      split
      · exact h
      · exact h.dropped
    exact h'.congr rfl rfl rfl rfl rfl
  cases ho with
  | short =>
    obtain ⟨tx, htx, -⟩ := h.tx_buffer
    exact ⟨h.disciplined.congr rfl rfl, h.dcomp_buffer, tx.clear,
      congrArg (Option.map PacketBuffer.clear) htx, fun _ => rfl⟩
  | refused _ hd1 =>
    rcases hd1 with rfl | rfl
    · obtain ⟨tx, htx, -⟩ := h.tx_buffer
      exact .refusing h.disciplined h.dcomp_buffer (htx ▸ rfl)
    · have h1 := harrived (headerOf cfg packetBuffer).sequence
      obtain ⟨tx, htx, -⟩ := h1.tx_buffer
      exact .refusing h1.disciplined h1.dcomp_buffer (htx ▸ rfl)
  | passed => exact harrived _

/-- **An option** keeps the sizes; the frame it delivers has the size it says. -/
theorem Sized.outcome {pos : Nat} {flag : Bool} {option : PacketHeaderOption} {tx : PacketBuffer B}
    {r : Progress} (h : Sized cfg d) (ho : Outcome cfg packetBuffer pos flag option tx d r d') :
    match r with
    | .refused | .onto _ _ => Sized cfg d'
    | .delivered _ _ => Disciplined cfg d' ∧ d'.dcomp_buffer.isSome := by
  cases ho with
  | refused htried =>
    obtain ⟨-, -, tx1, dc1, -, -, htx1, hdc1, -⟩ := htried.buffers
    exact .refusing ((h.begun option).disciplined.tried htried) (hdc1 ▸ rfl) (htx1 ▸ rfl)
  | ignored => exact h
  | skipped => exact h.dropped
  | @kept payload tx' htype hpart hcomplete hun =>
    refine ⟨h.disciplined.congr rfl rfl, h.dcomp_buffer, tx', rfl, fun h0 => ?_⟩
    simp only [unusable, Bool.or_eq_false_iff, bne_eq_false_iff_eq] at hun
    have h1 : option.part.toNat = 0 := congrArg UInt8.toNat h0
    omega
  | @delivered d1 frame hsize hused htried htx1 hsz =>
    obtain ⟨-, -, -, dc1, -, -, -, hdc1, -⟩ := htried.buffers
    refine ⟨⟨?_, fun tx' h' => absurd h' (by simp [pushed])⟩, Option.isSome_iff_exists.mpr ⟨dc1, hdc1⟩⟩
    exact List.rel_append ((h.begun option).disciplined.tried htried).delivered
      (.cons ⟨hsz, hsz ▸ hsize⟩ .nil)

variable (cfg packetBuffer) in
theorem decodeHeader_sized {E : Stop → PacketDecoder H B → Prop} :
    Call.Meets (Sized cfg) (decodeHeader cfg packetBuffer) (fun _ => Sized cfg) E := by
  intro d h
  obtain ⟨tx, htx, -⟩ := h.tx_buffer
  exact (decodeHeader_meets htx).mono (fun _ h => h) (fun _ _ ho => h.opened ho) (fun _ _ h => h) d rfl

variable (packetBuffer) in
/-- An option whose frame is pushed leaves the decoder without `tx_buffer`. -/
theorem takeOption_sized (hlibs : LibsBounded cfg B) (pos : Nat) (flag : Bool)
    {E : Stop → PacketDecoder H B → Prop} :
    Call.Meets (Sized cfg) (takeOption cfg packetBuffer pos flag)
      (fun r d => match r with
        | .refused | .onto _ _ => Sized cfg d
        | .delivered _ _ => Disciplined cfg d ∧ d.dcomp_buffer.isSome) E := by
  intro d h
  obtain ⟨tx, htx, -⟩ := h.tx_buffer
  obtain ⟨dc, hdc⟩ := Option.isSome_iff_exists.mp h.dcomp_buffer
  refine (takeOption_meets htx hdc).mono (fun _ h => h) (fun r d' ho => ?_)
    (fun _ _ hbad => absurd (h.sizesOk hlibs) hbad) d rfl
  have := h.outcome ho
  cases r <;> exact this

variable (cfg) in
/-- `refill` waits, or there is a `tx_buffer` again. -/
theorem refill_sized (assembled : Bool) :
    Call.Meets (fun d : PacketDecoder H B => Disciplined cfg d ∧ d.dcomp_buffer.isSome)
      (refill cfg assembled) (fun _ => Sized cfg) (fun x d => x = .blocked ∧ Disciplined cfg d) := by
  intro d h
  rcases refill_run cfg assembled d with hb | ⟨b, rest, -, hrun⟩
  · rw [hb]
    exact ⟨rfl, h.1⟩
  · rw [hrun]
    have h1 := Disciplined.cleared (d := { d with
        tx_buffer := some b, available_buffer_pool := ⟨rest⟩ }) (h.1.congr rfl rfl) h.2 rfl
    cases assembled with
    | true => exact h1.flushed
    | false => exact h1

theorem finish_sized (flag : Bool) {E : Stop → PacketDecoder H B → Prop} :
    Call.Meets (Sized cfg) (finish cfg packetBuffer flag) (fun _ => Sized cfg) E := by
  intro d h
  rw [finish_run]
  have h1 : Sized cfg { d with inflight_buffers := d.inflight_buffers ++ [packetBuffer] } :=
    h.congr rfl rfl rfl rfl rfl
  cases flag with
  | true => exact h1.flushed
  | false => exact h1

variable (packetBuffer) in
/-- The body of the loop keeps the sizes, and when it does not return, it waits for a buffer. -/
theorem decodeOption_sized (hlibs : LibsBounded cfg B) (pos : Nat) (flag : Bool) :
    Call.Meets (Sized cfg) (decodeOption cfg packetBuffer pos flag) (fun _ => Sized cfg)
      (fun x d => x = .blocked ∧ Disciplined cfg d) := by
  refine Call.Meets.mono (decodeOption_meets (O := Sized cfg) (L := fun _ _ => Sized cfg)
    ((takeOption_sized packetBuffer hlibs pos flag).mono (fun _ h => h) (fun r _ h => ?_)
      fun _ _ h => h) fun assembled _ => refill_sized cfg assembled) (fun _ h => h) (fun r _ h => ?_)
    fun _ _ h => h
  all_goals cases r <;> exact h

/-- **`decode` keeps the sizes**, and when it does not return, it waits for a buffer or is still in
its loop. -/
theorem decode_sized (hlibs : LibsBounded cfg B) (fuel : Nat) :
    Call.Meets (Sized cfg) (decode cfg fuel packetBuffer) (fun _ => Sized cfg)
      (fun x d' => (x = .blocked ∨ x = .running) ∧ Disciplined cfg d') := by
  refine decode_meets (L := fun _ _ => Sized cfg)
    (P := fun _ _ d => Disciplined cfg d ∧ d.dcomp_buffer.isSome)
    ((decodeHeader_sized cfg packetBuffer).mono (fun _ h => h) (fun r _ h => ?_) fun _ _ h => h)
    (fun pos flag _ => (takeOption_sized packetBuffer hlibs pos flag).mono (fun _ h => h)
      (fun r _ h => ?_) fun _ _ h => h)
    (fun assembled _ => (refill_sized cfg assembled).mono (fun _ h => h) (fun _ _ h => h)
      fun _ _ h => ⟨Or.inl h.1, h.2⟩) (fun _ flag _ => finish_sized flag)
    fun _ _ _ h => ⟨Or.inr rfl, h.disciplined⟩
  all_goals cases r <;> exact h

theorem Starts.sized {available : List (PacketBuffer B)} (h : Starts cfg available d) :
    Sized cfg d := by
  obtain ⟨dc, tx, rest, -, rfl⟩ := h.eq
  exact ⟨⟨.nil, fun tx _ => tx.dataSize_le⟩, rfl, tx.clear, rfl, fun _ => rfl⟩

/-- **Arbitrary datagrams**: after every run of `decode`, and whatever becomes of the next call, the
sizes are as the options say; `append` and `setDataSize` do not throw. -/
theorem disciplined_of_path (hlibs : LibsBounded cfg B) {available pkts : List (PacketBuffer B)}
    {d0 : PacketDecoder H B} (hstart : Starts cfg available d0)
    (hrun : StepPath (Decodes cfg) d0 pkts d) :
    Disciplined cfg d ∧ ∀ fuel packetBuffer, Call.Meets (· = d) (decode cfg fuel packetBuffer)
      (fun _ d' => Disciplined cfg d')
      (fun x d' => (x = .blocked ∨ x = .running) ∧ Disciplined cfg d') := by
  have h := hrun.invariant (fun _ _ _ h hd => hd.of_meets (decode_sized hlibs) h) hstart.sized
  exact ⟨h.disciplined, fun fuel packetBuffer => (decode_sized hlibs fuel).mono (fun _ hd => hd ▸ h)
    (fun _ _ h => h.disciplined) fun _ _ h => h⟩

/-- A frame of four bytes, then an option that says its frame has 65535. -/
theorem disciplined_of_path_oversize :
    let cfg := (Tunnel.smallestLZ4 (.inet 58023 #v[192, 0, 2, 1])).decoder fun _ => 0
    let datagram := (PacketEncoder.header 1 1).bytes .little ++
      (PacketHeaderOption.mk COMPLETE_PACKET 4 NONE 4 0 0).bytes ++ [10, 20, 30, 40] ++
      (PacketHeaderOption.mk PARTIAL_PACKET 65535 COMPRESSED_LZ4 65535 1 0).bytes
    ∃ d0 d : PacketDecoder (List (List UInt8)) 1344, Starts cfg (PacketBuffer.fresh 0 10) d0 ∧
      StepPath (Decodes cfg) d0 [.ofData 20 datagram (by decide)] d ∧ d.completedBy.length = 1 ∧
      Disciplined cfg d ∧ ∀ fuel packetBuffer, Call.Meets (· = d) (decode cfg fuel packetBuffer)
        (fun _ d' => Disciplined cfg d')
        (fun x d' => (x = .blocked ∨ x = .running) ∧ Disciplined cfg d') := by
  intro cfg datagram
  obtain ⟨⟨⟩, d, hrun, hby⟩ := Call.exists_of_okAnd (p := fun d => d.completedBy.length == 1)
    (r := (Tunnel.smallestLZ4 (.inet 58023 #v[192, 0, 2, 1])).decoderRun (fun _ => 0) 10
      (PacketBuffer.fresh 0 10) [.ofData 20 datagram (by decide)]) (by decide +kernel)
  obtain ⟨d0, hstart, hpath⟩ := path_of_decoderRun hrun
  exact ⟨d0, d, hstart, hpath, beq_iff_eq.mp hby, disciplined_of_path ⟨StreamCompressor.literals_decompressBounded _,
    StreamCompressor.literals_decompressBounded _⟩ hstart hpath⟩

end PacketDecoder
end SuperEthd
