import SuperEthd.EncoderRuns
import SuperEthd.Segments

/-! # What an encoder sends

Runs of the encoder, seen from the wire: every datagram is well formed, and the stream of
datagrams is a segmentation of the accepted frames. -/
namespace SuperEthd
open PacketHeaderOptionType PacketHeaderOptionFormatType PacketEncoder

variable {H : Type}

/-- A run that never has to wait for a buffer returns. -/
theorem Tunnel.encoderRun_ok {T : Tunnel H} (hlib : Bounded T) {fuel : Nat} (hfuel : T.B ≤ fuel)
    (seq : UInt32) (available : List (PacketBuffer T.B)) (ops : List (Op T.B))
    (hpool : waits (T.encoderRun fuel seq available ops) = false) :
    ∃ e, T.encoderRun fuel seq available ops = .ok () e ∧ Idle T seq e ∧
      e.accepted = ops.flatMap (Op.accepted T) := by
  rcases (encoderCalls_meets hlib hfuel seq ⟨available⟩ ops).of_run rfl with
    ⟨⟨⟩, e, hrun, h⟩ | ⟨x, e, hrun, rfl⟩
  · exact ⟨e, hrun, h⟩
  · rw [Tunnel.encoderRun, hrun] at hpool
    simp [waits] at hpool

/-- **The encoder's datagrams segment the frames.**  In its TX pool are the datagrams `ds`, each a
header of version 1 with one option and then its records, at least one, within `l4mtu`; they
have successive sequence numbers; and their records, with those still in `tx_buffer`, are one
record or a series of parts for each of the frames, in order. -/
structure SegmentsFrames (T : Tunnel H) (seq : UInt32) (frames : List (List UInt8))
    (e : PacketEncoder H T.B) (ds : List (Datagram H)) (pending : List (Record H))
    (segs : List (List (Nat × Record H))) : Prop where
  wire : e.tx_buffer_pool.pool.map PacketBuffer.data = ds.map (Datagram.bytes T.host)
  tx_buffer : e.tx_buffer.map (fun tx => tx.data.drop PacketHeader.size) =
    some (pending.flatMap Record.bytes)
  nonempty : ∀ d ∈ ds, d.records ≠ []
  length_le : ∀ d ∈ ds, (d.bytes T.host).length ≤ T.l4mtu
  sequence : Successive seq (ds.map Datagram.sequence) e.sequence
  grouped : placed (ds.map Datagram.records ++ [pending]) = segs.flatten
  segmented : List.Forall₂ (fun frame seg =>
    ∃ f, f.frame = frame ∧ Segmented T (ds.map Datagram.records) f seg) frames segs

/-- Between two calls, the stream an encoder holds segments the frames that end in it. -/
theorem PacketEncoder.Emitted.segments {T : Tunnel H} {seq : UInt32} {ds : List (Datagram H)}
    {pending : List (Record H)} {c0 : Cursor H} {n : Nat} {history : H} {e : PacketEncoder H T.B}
    (hem : Emitted T seq ds pending c0 (.between n history) e) :
    ∃ segs, SegmentsFrames T seq
      ((finished (ds.flatMap Datagram.records ++ pending)).map EncodedFrame.frame) e ds pending segs := by
  obtain ⟨tx, htx, -, hbytes⟩ := hem.tx
  obtain ⟨segs, seg, hplaced, hopen, hsegs⟩ := grouped_of_sends hem.sent hem.laid
  obtain rfl : seg = [] := hopen
  refine ⟨segs, hem.pool, ?_, fun d hd => (size_of_sends hem.sent d hd).1, fun d hd => ?_,
    successive_of_sends hem.sent, ?_, ?_⟩
  · rw [htx, Option.map_some, hbytes]
  · rw [Datagram.bytes_length]
    exact (size_of_sends hem.sent d hd).2
  · rw [hplaced, List.append_nil]
  · rw [List.flatMap_def, List.forall₂_map_left_iff]
    exact hsegs.imp fun f seg h => ⟨f, rfl, h⟩

/-- **Every run of `encode` and `flush`** on an accepted configuration segments the accepted
frames. -/
theorem encoder_segments_frames (T : Tunnel H) (hlib : Bounded T) {fuel : Nat} (hfuel : T.B ≤ fuel)
    (seq : UInt32) (available : List (PacketBuffer T.B)) (ops : List (Op T.B))
    (hpool : waits (T.encoderRun fuel seq available ops) = false) :
    ∃ e ds pending segs, T.encoderRun fuel seq available ops = .ok () e ∧
      SegmentsFrames T seq (ops.flatMap (Op.accepted T)) e ds pending segs := by
  obtain ⟨e, hrun, hidle, hacc⟩ := Tunnel.encoderRun_ok hlib hfuel seq available ops hpool
  obtain ⟨history, ⟨ds, pending, c0, hem, hfs⟩, -⟩ := hidle.stream
  obtain ⟨segs, hsegs⟩ := hem.segments
  rw [hfs, hacc] at hsegs
  exact ⟨e, ds, pending, segs, hrun, hsegs⟩

/-- A full-size frame behind a small one, on the smallest sizes. -/
theorem encoder_segments_split_frame :
    let T := Tunnel.smallest (.inet 58023 #v[192, 0, 2, 1])
    let ops : List (Op T.B) :=
      [.encode (.ofData 10 (List.replicate 60 0) (by rw [List.length_replicate]; decide)),
        .encode (.ofData 11 (List.replicate 1222 65) (by rw [List.length_replicate]; decide)), .flush]
    ∃ e ds pending segs, T.encoderRun 2000 1 (PacketBuffer.fresh 0 10) ops = .ok () e ∧
      SegmentsFrames T 1 (ops.flatMap (Op.accepted T)) e ds pending segs := by
  intro T ops
  exact encoder_segments_frames T (fun hn => absurd rfl hn) (by decide) 1 _ ops (by decide +kernel)

end SuperEthd
