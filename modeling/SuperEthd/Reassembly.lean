import SuperEthd.DecoderSteps

/-! # The reassembly state

What `last_part`, `last_format`, `last_orig_packet_size` and `tx_buffer` say between two calls
of `decode`, whatever datagrams came: the parts accepted since they were last cleared.  A
datagram shorter than the header is the one thing that breaks this. -/
namespace SuperEthd
open PacketHeaderOptionType PacketHeaderOptionFormatType

namespace PacketDecoder
variable {H : Type} {B : Nat} {cfg : DecoderConfig H} {d d' : PacketDecoder H B}
  {packetBuffer : PacketBuffer B}

/-- **The reassembly state** stands for the parts accepted since the last clear. -/
structure Reassembles (cfg : DecoderConfig H) (d : PacketDecoder H B) : Prop where
  tx_buffer : d.tx_buffer.map PacketBuffer.data = some (d.accepted.flatMap Part.payload)
  parts : d.accepted.map (fun p => p.part.toNat) = List.range' 1 d.last_part.toNat
  same : ∀ p ∈ d.accepted, p.packet_size = d.last_orig_packet_size ∧ p.format = d.last_format
  idle : d.last_part = 0 → d.tx_buffer.map PacketBuffer.data = some [] ∧ d.last_format = NONE ∧
    d.last_orig_packet_size = 0
  size_le : ∀ tx ∈ d.tx_buffer, d.last_format ≠ COMPRESSED_LZ4 → d.last_format ≠ COMPRESSED_ZSTD →
    tx.data.length ≤ d.last_orig_packet_size
  l2mtu : d.last_orig_packet_size ≤ cfg.l2mtu

/-- No part has been accepted when none is pending. -/
theorem Reassembles.accepted_eq_nil (h : Reassembles cfg d) (h0 : d.last_part = 0) :
    d.accepted = [] := by
  have hparts := h.parts
  rw [h0] at hparts
  exact List.map_eq_nil_iff.mp hparts

theorem reassembles_of_cleared (tx : PacketBuffer B) (htx : d.tx_buffer = some tx)
    (h0 : tx.data = []) (hpart : d.last_part = 0) (hformat : d.last_format = NONE)
    (hsize : d.last_orig_packet_size = 0) (hacc : d.accepted = []) : Reassembles cfg d where
  tx_buffer := by rw [htx, hacc, Option.map_some, h0]; rfl
  parts := by rw [hacc, hpart]; rfl
  same p hp := by rw [hacc] at hp; exact absurd hp List.not_mem_nil
  idle _ := ⟨by rw [htx, Option.map_some, h0], hformat, hsize⟩
  size_le tx' htx' _ _ := by
    obtain rfl : tx = tx' := Option.some.inj (htx.symm.trans htx')
    rw [h0]
    exact Nat.zero_le _
  l2mtu := by rw [hsize]; exact Nat.zero_le _

theorem cleared_reassembles (h : d.tx_buffer.isSome) : Reassembles cfg d.cleared := by
  obtain ⟨tx, htx⟩ := Option.isSome_iff_exists.mp h
  exact reassembles_of_cleared tx.clear (by simp [cleared, htx]) rfl rfl rfl rfl rfl

/-- The members that `Reassembles` speaks of are the same. -/
theorem Reassembles.congr (h : Reassembles cfg d) (htx : d'.tx_buffer = d.tx_buffer)
    (hpart : d'.last_part = d.last_part) (hformat : d'.last_format = d.last_format)
    (hsize : d'.last_orig_packet_size = d.last_orig_packet_size)
    (hacc : d'.accepted = d.accepted) : Reassembles cfg d' := by
  obtain ⟨h1, h2, h3, h4, h5, h6⟩ := h
  refine ⟨?_, ?_, ?_, ?_, ?_, ?_⟩
  all_goals simpa only [htx, hpart, hformat, hsize, hacc]

/-- **Keeping a part** adds it to those accepted. -/
theorem Reassembles.keeping {option : PacketHeaderOption} {payload : List UInt8}
    {tx tx' : PacketBuffer B} (h : Reassembles cfg d) (htx : d.tx_buffer = some tx)
    (hun : unusable d option = false) (hsize : option.packet_size ≤ cfg.l2mtu)
    (hdata : tx'.data = tx.data ++ payload)
    (hle : option.formatIsCompressed = false → tx'.dataSize ≤ option.packet_size) :
    Reassembles cfg (d.keeping option payload tx') := by
  simp only [unusable, Bool.or_eq_false_iff, Bool.and_eq_false_iff, bne_eq_false_iff_eq,
    beq_eq_false_iff_ne] at hun
  obtain ⟨⟨⟨-, hpart⟩, hsizes⟩, hformats⟩ := hun
  have htx1 := h.tx_buffer
  rw [htx, Option.map_some] at htx1
  refine ⟨?_, ?_, ?_, fun h0 => ?_, ?_, hsize⟩
  · simp only [PacketDecoder.keeping, Option.map_some, hdata, Option.some.inj htx1,
      List.flatMap_append, List.flatMap_singleton]
  · simp only [PacketDecoder.keeping, List.map_append, List.map_singleton, h.parts, hpart]
    rw [List.range'_1_concat, Nat.add_comm 1]
  · intro p hp
    rcases List.mem_append.mp hp with hp | hp
    · obtain ⟨hp1, hp2⟩ := h.same p hp
      have hne : d.last_part ≠ 0 := fun h0 => by
        rw [h.accepted_eq_nil h0] at hp
        exact absurd hp List.not_mem_nil
      exact ⟨hp1.trans (hsizes.resolve_left hne).symm, hp2.trans (hformats.resolve_left hne)⟩
    · obtain rfl := List.mem_singleton.mp hp
      exact ⟨rfl, rfl⟩
  · have h1 : option.part.toNat = 0 := congrArg UInt8.toNat h0
    omega
  · rintro _ ⟨⟩ h1 h2
    rw [tx'.data_length]
    exact hle (by simpa [PacketHeaderOption.formatIsCompressed] using ⟨h1, h2⟩)

/-- The state between two options or two calls: the decompression buffer is there, too. -/
def Ready (cfg : DecoderConfig H) (d : PacketDecoder H B) : Prop :=
  Reassembles cfg d ∧ d.dcomp_buffer.isSome

theorem Ready.buffers (h : Ready cfg d) :
    ∃ tx dc, d.tx_buffer = some tx ∧ d.dcomp_buffer = some dc := by
  obtain ⟨dc, hdc⟩ := Option.isSome_iff_exists.mp h.2
  obtain ⟨tx, htx, -⟩ := Option.map_eq_some_iff.mp h.1.tx_buffer
  exact ⟨tx, dc, htx, hdc⟩

theorem ready_of_cleared (h : d.tx_buffer.isSome) (hdc : d.dcomp_buffer.isSome) :
    Ready cfg d.cleared :=
  ⟨cleared_reassembles h, hdc⟩

theorem Ready.flushed (h : Ready cfg d) : Ready cfg (d.flushed cfg) :=
  ⟨h.1.congr rfl rfl rfl rfl rfl, h.2⟩

/-- Every refusal clears the state. -/
theorem ready_of_refusing (h : d.tx_buffer.isSome) (hdc : d.dcomp_buffer.isSome) :
    Ready cfg (d.refusing cfg packetBuffer) :=
  Ready.flushed ⟨(cleared_reassembles h).congr rfl rfl rfl rfl rfl, hdc⟩

/-- The datagram is shorter than the header, and `tx_buffer` holds data. -/
def LosesParts (d : PacketDecoder H B) (packetBuffer : PacketBuffer B) : Prop :=
  packetBuffer.dataSize < PacketHeader.size ∧ d.tx_buffer.map PacketBuffer.data ≠ some []

theorem Ready.arrived (h : Ready cfg d) (sequence : UInt32) : Ready cfg (d.arrived cfg sequence) := by
  have h' : Ready cfg (if d.goesOn sequence then d else d.cleared.flushed cfg) := by
    split
    · exact h
    · obtain ⟨tx, dc, htx, hdc⟩ := h.buffers
      exact (ready_of_cleared (htx ▸ rfl) h.2).flushed
  exact ⟨h'.1.congr rfl rfl rfl rfl rfl, h'.2⟩

/-- **A header** keeps the reassembly state, or clears it. -/
theorem Ready.opened {r : Option Nat} (h : Ready cfg d) (hshort : ¬LosesParts d packetBuffer)
    (ho : Opened cfg packetBuffer d r d') : Ready cfg d' := by
  obtain ⟨tx, dc, htx, hdc⟩ := h.buffers
  cases ho with
  | short hlt =>
    have h0 : d.tx_buffer.map PacketBuffer.data = some [] := by
      by_contra hne
      exact hshort ⟨hlt, hne⟩
    obtain ⟨h1, h2, h3, h4, h5, h6⟩ := h.1
    rw [htx, Option.map_some] at h0 h1
    refine ⟨⟨?_, h2, h3, fun h0 => ⟨?_, (h4 h0).2⟩, ?_, h6⟩, h.2⟩
    · simp [htx, ← Option.some.inj h1, Option.some.inj h0]
    · simp [htx]
    · intro tx' htx' _ _
      obtain ⟨tx1, -, rfl⟩ := Option.map_eq_some_iff.mp htx'
      exact Nat.zero_le _
  | refused _ hd1 =>
    rcases hd1 with rfl | rfl
    · exact ready_of_refusing (htx ▸ rfl) h.2
    · obtain ⟨tx1, dc1, htx1, hdc1⟩ := (h.arrived (headerOf cfg packetBuffer).sequence).buffers
      exact ready_of_refusing (htx1 ▸ rfl) (hdc1 ▸ rfl)
  | passed => exact h.arrived _

/-- **An option** keeps the reassembly state, adds to it or clears it; a frame that is delivered
takes `tx_buffer` with it. -/
theorem Ready.outcome {pos : Nat} {flag : Bool} {option : PacketHeaderOption} {tx : PacketBuffer B}
    {r : Progress} (h : Ready cfg d) (htx : d.tx_buffer = some tx)
    (ho : Outcome cfg packetBuffer pos flag option tx d r d') :
    match r with
    | .refused | .onto _ _ => Ready cfg d'
    | .delivered _ _ => d'.dcomp_buffer.isSome := by
  cases ho with
  | refused htried =>
    obtain ⟨-, -, tx1, dc1, -, -, htx1, hdc1, -⟩ := htried.buffers
    exact ready_of_refusing (htx1 ▸ rfl) (hdc1 ▸ rfl)
  | ignored => exact h
  | skipped => exact (ready_of_cleared (htx ▸ rfl) h.2).flushed
  | kept htype hpart hcomplete hun hsize hdata hid hle =>
    exact ⟨h.1.keeping htx hun hsize hdata hle, h.2⟩
  | delivered hsize hused htried htx1 =>
    obtain ⟨-, -, tx1, dc1, -, -, -, hdc1, -⟩ := htried.buffers
    exact Option.isSome_iff_exists.mpr ⟨dc1, hdc1⟩

/-- **`decode` keeps the reassembly state**, unless the datagram loses the parts. -/
theorem decode_reassembles (fuel : Nat) :
    Call.Meets (fun d => Ready cfg d ∧ ¬LosesParts d packetBuffer) (decode cfg fuel packetBuffer)
      (fun _ => Ready cfg) (fun _ _ => True) := by
  refine decode_meets (L := fun _ _ => Ready cfg) (P := fun _ _ d => d.dcomp_buffer.isSome)
    (fun d h => ?_) (fun pos flag _ d h => ?_) (fun assembled pos d h => ?_) (fun pos flag _ d h => ?_)
    (fun _ _ _ _ => trivial)
  · obtain ⟨tx, dc, htx, hdc⟩ := h.1.buffers
    refine (decodeHeader_meets (E := fun _ _ => True) htx).mono (fun _ h => h) (fun r d' ho => ?_)
      (fun _ _ h => h) d rfl
    cases r <;> exact h.1.opened h.2 ho
  · obtain ⟨tx, dc, htx, hdc⟩ := h.buffers
    refine (takeOption_meets htx hdc).mono (fun _ h => h) (fun r d' ho => ?_)
      (fun _ _ _ => trivial) d rfl
    have := h.outcome htx ho
    cases r <;> exact this
  · rcases refill_run cfg assembled d with hb | ⟨b, rest, -, hrun⟩
    · rw [hb]; trivial
    · rw [hrun]
      cases assembled with
      | true => exact Ready.flushed (ready_of_cleared rfl h)
      | false => exact ready_of_cleared rfl h
  · rw [finish_run]
    cases flag with
    | true => exact Ready.flushed ⟨h.1.congr rfl rfl rfl rfl rfl, h.2⟩
    | false => exact ⟨h.1.congr rfl rfl rfl rfl rfl, h.2⟩

theorem Starts.ready {available : List (PacketBuffer B)} (h : Starts cfg available d) :
    Ready cfg d := by
  obtain ⟨dc, tx, rest, -, rfl⟩ := h.eq
  exact ⟨reassembles_of_cleared _ rfl rfl rfl rfl rfl rfl, rfl⟩

/-- **In every run in which no datagram shorter than the header comes while `tx_buffer` holds data**,
the reassembly state stands for the accepted parts. -/
theorem reassembles_of_path {available pkts : List (PacketBuffer B)} {d0 : PacketDecoder H B}
    (hstart : Starts cfg available d0)
    (hrun : StepPath (fun d packetBuffer d' => Decodes cfg d packetBuffer d' ∧
      ¬LosesParts d packetBuffer) d0 pkts d) : Reassembles cfg d :=
  (hrun.invariant (I := Ready cfg) (fun _ _ _ h hd =>
    hd.1.of_meets decode_reassembles ⟨h, hd.2⟩) hstart.ready).1

/-- A datagram with the first part of a frame of 1000 bytes. -/
def firstPart : List UInt8 :=
  (PacketEncoder.header 1 1).bytes .little ++
    (PacketHeaderOption.mk PARTIAL_PACKET 1000 NONE 4 1 0).bytes ++ [10, 20, 30, 40]

/-- The first part is kept. -/
theorem reassembles_of_path_first_part :
    let cfg := (Tunnel.smallest (.inet 58023 #v[192, 0, 2, 1])).decoder fun _ => 0
    ∃ d0 d : PacketDecoder (List (List UInt8)) 1344, Starts cfg (PacketBuffer.fresh 0 10) d0 ∧
      StepPath (fun d packetBuffer d' => Decodes cfg d packetBuffer d' ∧ ¬LosesParts d packetBuffer) d0
        [.ofData 20 firstPart (by decide)] d ∧ d.last_part = 1 ∧ Reassembles cfg d := by
  intro cfg
  obtain ⟨⟨⟩, d, hrun, hlast⟩ := Call.exists_of_okAnd (p := fun d => d.last_part == 1)
    (r := (Tunnel.smallest (.inet 58023 #v[192, 0, 2, 1])).decoderRun (fun _ => 0) 10
      (PacketBuffer.fresh 0 10) [.ofData 20 firstPart (by decide)]) (by decide +kernel)
  obtain ⟨d0, hstart, hpath⟩ := path_of_decoderRun hrun
  obtain ⟨d1, hd1, hnil⟩ := StepPath.cons_iff.mp hpath
  have hpath' : StepPath (fun d packetBuffer d' => Decodes cfg d packetBuffer d' ∧
      ¬LosesParts d packetBuffer) d0 [.ofData 20 firstPart (by decide)] d :=
    .cons ⟨hd1, fun h => absurd h.1 (by decide)⟩ (StepPath.nil_iff.mp hnil ▸ .nil _)
  exact ⟨d0, d, hstart, hpath', beq_iff_eq.mp hlast, reassembles_of_path hstart hpath'⟩

/-- **A datagram of three bytes behind the first part** empties `tx_buffer` and leaves the rest. -/
theorem short_datagram_loses_parts :
    let cfg := (Tunnel.smallest (.inet 58023 #v[192, 0, 2, 1])).decoder fun _ => 0
    ∃ d0 d : PacketDecoder (List (List UInt8)) 1344, Starts cfg (PacketBuffer.fresh 0 10) d0 ∧
      StepPath (Decodes cfg) d0 [.ofData 20 firstPart (by decide), .ofData 21 [1, 2, 3] (by decide)] d ∧
      d.last_part = 1 ∧ d.tx_buffer.map PacketBuffer.data = some [] ∧ ¬Reassembles cfg d := by
  intro cfg
  obtain ⟨⟨⟩, d, hrun, htest⟩ := Call.exists_of_okAnd
    (p := fun d : PacketDecoder (List (List UInt8)) 1344 => decide (d.last_part = 1 ∧ d.tx_buffer.map PacketBuffer.data = some [] ∧
      d.accepted.flatMap Part.payload = [10, 20, 30, 40]))
    (r := (Tunnel.smallest (.inet 58023 #v[192, 0, 2, 1])).decoderRun (fun _ => 0) 10
      (PacketBuffer.fresh 0 10)
      [.ofData 20 firstPart (by decide), .ofData 21 [1, 2, 3] (by decide)]) (by decide +kernel)
  obtain ⟨hlast, htx, hacc⟩ := of_decide_eq_true htest
  obtain ⟨d0, hstart, hpath⟩ := path_of_decoderRun hrun
  refine ⟨d0, d, hstart, hpath, hlast, htx, fun h => ?_⟩
  have h1 := h.tx_buffer
  rw [htx, hacc] at h1
  cases h1

end PacketDecoder
end SuperEthd
