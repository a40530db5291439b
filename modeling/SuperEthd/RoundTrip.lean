import SuperEthd.Arrivals
import SuperEthd.Inflight

/-! # Through the tunnel

The frames that an encoder accepted, its datagrams, and a decoder on the other side.  When the
datagrams come in the order in which they were sent, the frames of which every datagram
comes are delivered and no others (`loss_is_confined`); so all of them are when none is lost
(`codec_round_trip`). -/
namespace SuperEthd
open PacketHeaderOptionType PacketHeaderOptionFormatType

variable {H : Type} {B : Nat}

namespace PacketEncoder

/-- The accepted frames all of whose datagrams are among those numbered `js`, in order. -/
def carriedBy (e : PacketEncoder H B) (js : List Nat) : List (List UInt8) :=
  (e.accepted.zipIdx.filter fun p => e.carriers.all fun q => q.1 != p.2 || js.contains q.2).map
    Prod.fst

variable {T : Tunnel H} {s0 : UInt32} {ds : List (Datagram H)} {pending : List (Record H)}
  {c0 c : Cursor H} {e : PacketEncoder H T.B} {place : Nat → Cursor H × UInt32} {js : List Nat}

/-- Numbers in order are what a test on their range lets pass. -/
theorem filter_range_eq {n : Nat} (hjs : js.Sublist (List.range n)) :
    (List.range n).filter js.contains = js := by
  have hself : js.filter js.contains = js :=
    List.filter_eq_self.mpr fun j hj => List.contains_iff_mem.mpr hj
  have hsub : js.Sublist ((List.range n).filter js.contains) := by
    have := hjs.filter js.contains
    rwa [hself] at this
  have hsubset : (List.range n).filter js.contains ⊆ js := fun j hj =>
    List.contains_iff_mem.mp (List.mem_filter.mp hj).2
  have hlen := (List.subperm_of_subset (List.nodup_range.filter _) hsubset).length_le
  exact (hsub.eq_of_length_le hlen).symm

/-- The encoder's record of a frame that ended in a datagram which was sent. -/
theorem Emitted.carriers_all_iff (hem : Emitted T s0 ds pending c0 c e) (h : Places T s0 ds place)
    (hend : place ds.length = (c0, e.sequence)) {f : EncodedFrame H}
    (hf : f ∈ finished (ds.flatMap Datagram.records)) :
    e.carriers.all (fun q => q.1 != f.index || js.contains q.2) = true ↔
      Receiver.Came js.contains place ds.length f.index := by
  have hended : f.index < (place ds.length).1.index := by
    have hmem := List.mem_map_of_mem (f := EncodedFrame.index) hf
    have hindex := h.finished_take (Nat.le_refl ds.length)
    rw [List.take_length] at hindex
    rwa [hindex, List.mem_range] at hmem
  rw [List.all_eq_true]
  constructor
  · intro hall i hi h1 h2
    have := hall _ ((hem.mem_carriers_iff h hi).mpr ⟨h1, h2⟩)
    simpa using this
  · rintro hcame ⟨m, i⟩ hmem
    rw [Bool.or_eq_true, bne_iff_ne]
    by_cases hm : m = f.index
    · right
      subst hm
      obtain ⟨hle, hindex⟩ := hem.of_mem_carriers h hend hmem
      -- it is not in the datagram that was not sent
      have hi : i < ds.length := by
        rcases Nat.lt_or_eq_of_le hle with hi | rfl
        · exact hi
        · exact absurd hended (Nat.not_lt.mpr hindex)
      obtain ⟨h1, h2⟩ := (hem.mem_carriers_iff h hi).mp hmem
      exact hcame i hi h1 h2
    · exact Or.inl hm

/-- **What a receiver delivers**, as the encoder's record has it. -/
theorem Emitted.carriedBy_eq (hem : Emitted T s0 ds pending c0 c e) (h : Places T s0 ds place)
    (hend : place ds.length = (c0, e.sequence))
    (hacc : (finished (ds.flatMap Datagram.records ++ pending)).map EncodedFrame.frame = e.accepted)
    (hjs : js.Sublist (List.range ds.length)) :
    (Receiver.run ds place js).frames.map EncodedFrame.frame = e.carriedBy js := by
  have hlast : ds.length ∉ js := fun hmem =>
    absurd (List.mem_range.mp (hjs.mem hmem)) (Nat.lt_irrefl _)
  have hframes := (Receiver.run_filter js.contains h (Nat.le_refl ds.length)).frames
  rw [filter_range_eq hjs, List.take_length] at hframes
  rw [hframes, carriedBy, hem.zipIdx_accepted h hend hacc, List.filter_map, List.map_map,
    finished_append, List.filter_append, List.map_append]
  have hpending : (finished pending).filter ((fun p : List UInt8 × Nat =>
      e.carriers.all fun q => q.1 != p.2 || js.contains q.2) ∘ fun f => (f.frame, f.index)) = [] := by
    refine List.filter_eq_nil_iff.mpr fun f hf hall => ?_
    have := List.all_eq_true.mp hall _ (hem.mem_carriers_of_pending hf)
    exact hlast (by simpa using this)
  rw [hpending, List.map_nil, List.append_nil]
  refine congrArg (List.map EncodedFrame.frame) (List.filter_congr fun f hf => ?_)
  rw [Bool.eq_iff_iff, decide_eq_true_iff]
  exact (hem.carriers_all_iff h hend hf).symm

/-- An encoder between two calls holds a stream with its places. -/
theorem Idle.places (h : Idle T s0 e) : ∃ ds pending c0 history place,
    Emitted T s0 ds pending c0 (.between e.accepted.length history) e ∧
      (finished (ds.flatMap Datagram.records ++ pending)).map EncodedFrame.frame = e.accepted ∧
      Places T s0 ds place ∧ place ds.length = (c0, e.sequence) ∧ Streaming T history e := by
  obtain ⟨history, ⟨ds, pending, c0, hem, hacc⟩, hs⟩ := h.stream
  obtain ⟨place, hplaces, hend⟩ := exists_places hem.sent
  exact ⟨ds, pending, c0, history, place, hem, hacc, hplaces, hend, hs⟩

/-- A run that returns leaves the encoder between two calls. -/
theorem idle_of_encoderRun (hlib : Bounded T) {fuel : Nat} {seq : UInt32}
    {available : List (PacketBuffer T.B)} {ops : List (Op T.B)}
    (hrun : T.encoderRun fuel seq available ops = .ok () e) : Idle T seq e := by
  obtain ⟨e0, hstart, hpath⟩ := path_of_encoderRun hrun
  exact hpath.invariant (fun _ _ _ h hcall => (h.calls hlib hcall).1) hstart.idle

/-- A run that ends with `flush` leaves nothing in `tx_buffer`. -/
theorem tx_buffer_of_flush (hlib : Bounded T) {fuel : Nat} {seq : UInt32}
    {available : List (PacketBuffer T.B)} {ops : List (Op T.B)}
    (hrun : T.encoderRun fuel seq available (ops ++ [.flush]) = .ok () e) :
    ∃ tx, e.tx_buffer = some tx ∧ tx.dataSize = PacketHeader.size := by
  obtain ⟨e0, hstart, hpath⟩ := path_of_encoderRun hrun
  obtain ⟨e1, hpath, ⟨_, hflush⟩⟩ := StepPath.concat_iff.mp hpath
  have hidle : Idle T seq e1 := hpath.invariant (fun _ _ _ h hcall => (h.calls hlib hcall).1) hstart.idle
  rcases flush_run hidle with ⟨e', hb⟩ | ⟨e', hrun', -, -, tx, htx, h8⟩
  · cases hb.symm.trans hflush
  · obtain ⟨-, rfl⟩ := EStateM.Result.ok.inj (hrun'.symm.trans hflush)
    exact ⟨tx, htx, h8⟩

end PacketEncoder

open PacketEncoder PacketDecoder

variable {T : Tunnel H} {seq : UInt32} {ds : List (Datagram H)} {place : Nat → Cursor H × UInt32}
  {js : List Nat} {heap : Nat → UInt8} {fuel : Nat}

/-- The buffers hold the datagrams with the given numbers of the encoder's TX pool. -/
def Arrive (e : PacketEncoder H B) (js : List Nat) (arrivals : List (PacketBuffer B)) : Prop :=
  List.Forall₂ (fun j b => e.tx_buffer_pool.pool[j]?.map PacketBuffer.data = some b.data) js arrivals

instance (e : PacketEncoder H B) (js : List Nat) (arrivals : List (PacketBuffer B)) :
    Decidable (Arrive e js arrivals) :=
  inferInstanceAs (Decidable (List.Forall₂ _ js arrivals))

theorem Arrive.holds {e : PacketEncoder H T.B} {arrivals : List (PacketBuffer T.B)}
    (harr : Arrive e js arrivals)
    (hpool : e.tx_buffer_pool.pool.map PacketBuffer.data = ds.map (Datagram.bytes T.host)) :
    List.Forall₂ (HoldsDatagram ds) js arrivals := by
  refine harr.imp fun j b hb => ?_
  rw [← List.getElem?_map, hpool, List.getElem?_map] at hb
  obtain ⟨D, hD, hbytes⟩ := Option.map_eq_some_iff.mp hb
  exact ⟨D, hD, hbytes.symm⟩

/-- All of the TX pool, in order. -/
theorem arrive_range {e : PacketEncoder H B} {arrivals : List (PacketBuffer B)}
    (h : arrivals.map PacketBuffer.data = e.tx_buffer_pool.pool.map PacketBuffer.data) :
    Arrive e (List.range e.tx_buffer_pool.pool.length) arrivals := by
  have hlen := congrArg List.length h
  rw [List.length_map, List.length_map] at hlen
  refine List.forall₂_iff_get.mpr ⟨by rw [List.length_range, hlen], fun i h1 h2 => ?_⟩
  rw [List.get_eq_getElem, List.get_eq_getElem, List.getElem_range, ← List.getElem?_map, ← h,
    List.getElem?_map, List.getElem?_eq_getElem h2, Option.map_some]

/-- What was given before is a run of its own. -/
theorem decoderRun_take {available arrivals : List (PacketBuffer T.B)} {d : PacketDecoder H T.B}
    (h : T.decoderRun heap fuel available arrivals = .ok () d) (k : Nat) :
    ∃ d1, T.decoderRun heap fuel available (arrivals.take k) = .ok () d1 := by
  obtain ⟨_, d0, hnew, hrun⟩ := Call.run_bind_eq_ok.mp h
  rw [← List.take_append_drop k arrivals, Call.runAll_append] at hrun
  obtain ⟨_, d1, htake, -⟩ := Call.run_bind_eq_ok.mp hrun
  exact ⟨d1, Call.run_bind_eq_ok.mpr ⟨_, d0, hnew, htake⟩⟩

/-! ## Datagrams in order -/

/-- The first datagram that comes is honest. -/
theorem honest_of_new {d : PacketDecoder H T.B} {j : Nat} {sequence : UInt32}
    (hd : Mirrors ds place (Receiver.run ds place []) d) :
    Honest (Receiver.run ds place []) j sequence d :=
  Or.inr (Or.inr (hd.new rfl).last_part)

/-- **Where the numbers do not wrap**, the sequence check sees what is not the next datagram, if none
comes late by half of all numbers. -/
theorem honest_of_near (h : Places T seq ds place)
    (hjs : ∀ j ∈ js, j < ds.length ∧ (nextSequence seq).toNat + j ≤ 4294967294)
    (hnear : js.Pairwise fun l j => l < j + 2147483648) :
    ∀ js1 j js2 D (d : PacketDecoder H T.B), js = js1 ++ j :: js2 → ds[j]? = some D →
      Mirrors ds place (Receiver.run ds place js1) d →
      Honest (Receiver.run ds place js1) j D.sequence d := by
  intro js1 j js2 D d hsplit hD hd
  rcases List.eq_nil_or_concat js1 with rfl | ⟨js1, l, rfl⟩
  · exact honest_of_new hd
  · rw [List.concat_eq_append] at hsplit hd ⊢
    have hlt : l < j + 2147483648 := by
      rw [hsplit, List.pairwise_append] at hnear
      exact hnear.2.2 l (List.mem_append_right _ List.mem_cons_self) j List.mem_cons_self
    have hbound : ∀ i ∈ js1 ++ [l], i < ds.length := fun i hi =>
      (hjs i (hsplit ▸ List.mem_append_left _ hi)).1
    by_cases hnext : j = l + 1
    · rw [hnext]
      exact honest_of_next hbound (List.getLast?_concat ..)
    · right; left
      have hl := hjs l (hsplit ▸ List.mem_append_left _ (List.mem_append_right _ List.mem_cons_self))
      have hj := hjs j (hsplit ▸ List.mem_append_right _ List.mem_cons_self)
      refine hd.goesOn_of_ne h (l := l) ?_ hnext hlt hl.2 hj.2 hD
      rw [Receiver.expects_run hbound, List.getLast?_concat]
      rfl

/-- Datagrams in order, with any of them missing. -/
theorem honest_of_sublist (h : Places T seq ds place)
    (hwrap : (nextSequence seq).toNat + ds.length ≤ 4294967295)
    (hjs : js.Sublist (List.range ds.length)) :
    ∀ js1 j js2 D (d : PacketDecoder H T.B), js = js1 ++ j :: js2 → ds[j]? = some D →
      Mirrors ds place (Receiver.run ds place js1) d →
      Honest (Receiver.run ds place js1) j D.sequence d := by
  refine honest_of_near h (fun j hj => ?_) ((List.pairwise_lt_range.sublist hjs).imp fun hlt => by omega)
  have hlt := List.mem_range.mp (hjs.mem hj)
  omega

/-- All datagrams in order: each is the next one, also where the numbers wrap. -/
theorem honest_of_range {n : Nat} :
    ∀ js1 j js2 D (d : PacketDecoder H T.B), List.range n = js1 ++ j :: js2 → ds[j]? = some D →
      Mirrors ds place (Receiver.run ds place js1) d →
      Honest (Receiver.run ds place js1) j D.sequence d := by
  intro js1 j js2 D d hsplit hD hd
  rw [List.range_eq_range'] at hsplit
  obtain ⟨k, -, rfl, hrest⟩ := List.range'_eq_append_iff.mp hsplit
  rw [Nat.mul_one, Nat.zero_add] at hrest
  obtain ⟨rfl, -, -⟩ := List.range'_eq_cons_iff.mp hrest.symm
  have hlt := (List.getElem?_eq_some_iff.mp hD).1
  cases k with
  | zero => exact honest_of_new hd
  | succ l =>
    refine honest_of_next (fun i hi => ?_) ?_
    · have := List.mem_range'_1.mp hi
      omega
    · rw [List.getLast?_range', if_neg (Nat.succ_ne_zero l), Nat.zero_add, Nat.add_sub_cancel]

/-- Behind a stream that ends between two frames, the history is the reset one. -/
theorem stream_eq_reset {d : PacketDecoder H T.B} {n : Nat}
    (hd : Mirrors ds place (Receiver.run ds place (List.range ds.length)) d)
    (hend : (place ds.length).1 = .between n T.lib.reset) : stream T d = T.lib.reset := by
  have hexpects : (Receiver.run ds place (List.range ds.length)).expects =
      (List.range ds.length).getLast?.map (· + 1) :=
    Receiver.expects_run fun j hj => List.mem_range.mp hj
  cases hexp : (Receiver.run ds place (List.range ds.length)).expects with
  | none => exact (hd.new hexp).stream
  | some j =>
    obtain ⟨_, _, _, _, _, _, hreads⟩ := hd.last j hexp
    rw [hexpects, List.getLast?_range] at hexp
    split at hexp
    · cases hexp
    · rename_i hne
      obtain rfl : ds.length = j := by
        have : ds.length - 1 + 1 = j := Option.some.inj hexp
        omega
      rw [hend] at hreads
      cases hsynced : (Receiver.run ds place (List.range ds.length)).synced with
      | true =>
        rw [hsynced] at hreads
        have hat : Holding T 0 NONE 0 [] T.lib.reset d := hreads
        exact hat.stream
      | false =>
        rw [hsynced] at hreads
        have hblank : Blank T d := hreads
        exact hblank.stream

variable (heap) in
/-- **Behind a gap** the sequence check resets both streams. -/
theorem checkSequence_of_gap (h : Places T seq ds place) {s : Receiver H} {d : PacketDecoder H T.B}
    {packetBuffer : PacketBuffer T.B} {l j : Nat}
    (hwrap : (nextSequence seq).toNat + ds.length ≤ 4294967295) (hd : Mirrors ds place s d)
    (hexp : s.expects = some (l + 1)) (hlt : l + 1 < j) (hp : HoldsDatagram ds j packetBuffer) :
    ∃ d', (checkSequence (T.decoder heap) (headerOf (T.decoder heap) packetBuffer).sequence).run d =
        .ok () d' ∧
      d'.compressorLZ4 = T.libs.lz4.reset ∧ d'.compressorZSTD = T.libs.zstd.reset := by
  obtain ⟨D, hD, hdata⟩ := hp
  have hgo := hd.goesOn_of_gap h hwrap hexp hlt hD
  obtain ⟨_, _, _, _, _, _, hreads⟩ := hd.last _ hexp
  obtain ⟨⟨tx, htx⟩, -⟩ := hreads.buffers
  rw [headerOf_eq hdata]
  refine ⟨_, checkSequence_run htx, ?_, ?_⟩
  all_goals
    rw [arrived, show d.goesOn (PacketEncoder.header D.sequence 1).sequence = false from hgo]
    rfl

/-- **What a decoder makes of datagrams that come in order**, with some of them missing. -/
structure Confines (T : Tunnel H) (heap : Nat → UInt8) (fuel : Nat) (available : List (PacketBuffer T.B))
    (e : PacketEncoder H T.B) (js : List Nat) (arrivals : List (PacketBuffer T.B)) : Prop where
  /-- the frames of which every datagram came are delivered -/
  delivered : ∃ d, T.decoderRun heap fuel available arrivals = .ok () d ∧
    d.tx_buffer_pool.pool.map PacketBuffer.data = e.carriedBy js
  /-- behind a gap the sequence check resets both streams -/
  no_stale_history : ∀ k l j packetBuffer, js[k]? = some l → js[k + 1]? = some j → j ≠ l + 1 →
    arrivals[k + 1]? = some packetBuffer →
    ∃ d d', T.decoderRun heap fuel available (arrivals.take (k + 1)) = .ok () d ∧
      (checkSequence (T.decoder heap) (headerOf (T.decoder heap) packetBuffer).sequence).run d =
        .ok () d' ∧
      d'.compressorLZ4 = T.libs.lz4.reset ∧ d'.compressorZSTD = T.libs.zstd.reset

/-- **Loss is confined.**  A run of the encoder on an accepted configuration returns, unless it has to
wait for a buffer; and when its numbers do not wrap and its datagrams come in the order in
which they were sent, any of them missing, the decoder delivers the frames of which every
datagram came, in order and once each, and keeps no history over a gap. -/
theorem loss_is_confined (T : Tunnel H) (hlib : LosslessLib T) (heap : Nat → UInt8) {fuel : Nat}
    (hfuel : T.B ≤ fuel) (seq : UInt32) (available available' : List (PacketBuffer T.B))
    (ops : List (Op T.B)) (hpool : waits (T.encoderRun fuel seq available ops) = false) :
    ∃ e, T.encoderRun fuel seq available ops = .ok () e ∧
      ((nextSequence seq).toNat + e.tx_buffer_pool.pool.length ≤ 4294967295 →
        ∀ js arrivals, js.Sublist (List.range e.tx_buffer_pool.pool.length) → Arrive e js arrivals →
          waits (T.decoderRun heap fuel available' arrivals) = false →
          Confines T heap fuel available' e js arrivals) := by
  obtain ⟨e, hrun, hidle, -⟩ :=
    Tunnel.encoderRun_ok (fun hn => (hlib hn).toCompressBounded) hfuel seq available ops hpool
  obtain ⟨ds, pending, c0, history, place, hem, hacc, hplaces, hend, -⟩ := hidle.places
  refine ⟨e, hrun, fun hwrap js arrivals hjs harr hwait => ?_⟩
  rw [hem.pool_length] at hwrap hjs
  have hholds := harr.holds hem.pool
  obtain ⟨d, hdrun, hd⟩ := decoderRun_mirrors heap hlib hfuel hplaces available' hholds
    (honest_of_sublist hplaces hwrap hjs) hwait
  refine ⟨⟨d, hdrun, hd.frames.trans (hem.carriedBy_eq hplaces hend hacc hjs)⟩, ?_⟩
  intro k l j packetBuffer hl hj hgap hp
  -- what came before the gap
  obtain ⟨d1, hrun1⟩ := decoderRun_take hdrun (k + 1)
  have hjs1 := (List.take_sublist (k + 1) js).trans hjs
  obtain ⟨d1, hrun1, hd1⟩ := decoderRun_mirrors heap hlib hfuel hplaces available'
    (List.forall₂_take (k + 1) hholds) (honest_of_sublist hplaces hwrap hjs1) (by rw [hrun1]; rfl)
  obtain ⟨hk1, rfl⟩ := List.getElem?_eq_some_iff.mp hj
  obtain ⟨hk2, rfl⟩ := List.getElem?_eq_some_iff.mp hp
  obtain ⟨hk, rfl⟩ := List.getElem?_eq_some_iff.mp hl
  have hlt : js[k] < js[k + 1] :=
    List.pairwise_iff_getElem.mp (List.pairwise_lt_range.sublist hjs) k (k + 1) hk hk1
      (Nat.lt_succ_self k)
  have hexp : (Receiver.run ds place (js.take (k + 1))).expects = some (js[k] + 1) := by
    rw [Receiver.expects_run fun j hj => List.mem_range.mp (hjs1.mem hj),
      List.take_succ_eq_append_getElem hk, List.getLast?_concat]
    rfl
  obtain ⟨d2, hrun2, hreset⟩ := checkSequence_of_gap heap (j := js[k + 1]) hplaces hwrap hd1 hexp
    (by omega) (hholds.get hk1 hk2)
  exact ⟨d1, d2, hrun1, hrun2, hreset⟩

/-- Of three frames in three datagrams the second is lost. -/
theorem loss_is_confined_second :
    let T := Tunnel.smallestLZ4 (.inet 58023 #v[192, 0, 2, 1])
    ∃ (e : PacketEncoder (List (List UInt8)) T.B) (arrivals : List (PacketBuffer T.B)),
      Confines T (fun _ => 0) 2000 (PacketBuffer.fresh 30 10) e [0, 2] arrivals ∧
      e.accepted = [[1, 2, 3], [4, 5, 6], [7, 8, 9]] ∧ e.carriedBy [0, 2] = [[1, 2, 3], [7, 8, 9]] := by
  intro T
  let arrivals : PacketEncoder (List (List UInt8)) T.B → List (PacketBuffer T.B) := fun e =>
    [0, 2].filterMap (e.tx_buffer_pool.pool[·]?)
  let ops : List (Op T.B) :=
    [.encode (.ofData 20 [1, 2, 3] (by decide)), .flush, .encode (.ofData 21 [4, 5, 6] (by decide)),
      .flush, .encode (.ofData 22 [7, 8, 9] (by decide)), .flush]
  obtain ⟨⟨⟩, e, hrun, htest⟩ := Call.exists_of_okAnd
    (p := fun e : PacketEncoder (List (List UInt8)) T.B => decide (e.tx_buffer_pool.pool.length = 3 ∧ Arrive e [0, 2] (arrivals e) ∧
      waits (T.decoderRun (fun _ => 0) 2000 (PacketBuffer.fresh 30 10) (arrivals e)) = false ∧
      e.accepted = [[1, 2, 3], [4, 5, 6], [7, 8, 9]] ∧ e.carriedBy [0, 2] = [[1, 2, 3], [7, 8, 9]]))
    (r := T.encoderRun 2000 1 (PacketBuffer.fresh 0 10) ops) (by decide +kernel)
  obtain ⟨hlen, harr, hwait, hacc, hcarried⟩ := of_decide_eq_true htest
  obtain ⟨e', hrun', hconfines⟩ := loss_is_confined T (fun _ => StreamCompressor.literals_lossless _ _)
    (fun _ => 0) (by decide : T.B ≤ 2000) 1 (PacketBuffer.fresh 0 10) (PacketBuffer.fresh 30 10) ops
    (by rw [hrun]; rfl)
  obtain ⟨-, rfl⟩ := EStateM.Result.ok.inj (hrun.symm.trans hrun')
  refine ⟨e, arrivals e, hconfines ?_ [0, 2] (arrivals e) ?_ harr hwait, hacc, hcarried⟩
  · rw [hlen]
    decide
  · rw [hlen]
    decide

/-- **Lossless round trip.**  A run of the encoder that ends with `flush` returns, unless it has to
wait for a buffer; and when all of its datagrams come in order, the decoder delivers the
accepted frames, and the two streams have the same history. -/
theorem codec_round_trip (T : Tunnel H) (hlib : LosslessLib T) (heap : Nat → UInt8) {fuel : Nat}
    (hfuel : T.B ≤ fuel) (seq : UInt32) (available available' : List (PacketBuffer T.B))
    (ops : List (Op T.B))
    (hpool : waits (T.encoderRun fuel seq available (ops ++ [.flush])) = false) :
    ∃ e, T.encoderRun fuel seq available (ops ++ [.flush]) = .ok () e ∧
      ∀ arrivals, arrivals.map PacketBuffer.data = e.tx_buffer_pool.pool.map PacketBuffer.data →
        waits (T.decoderRun heap fuel available' arrivals) = false →
        ∃ d, T.decoderRun heap fuel available' arrivals = .ok () d ∧
          d.tx_buffer_pool.pool.map PacketBuffer.data = ops.flatMap (Op.accepted T) ∧
          (T.packet_format ≠ NONE → e.compressor = some ⟨T.lib, stream T d⟩) := by
  have hbounded : Bounded T := fun hn => (hlib hn).toCompressBounded
  obtain ⟨e, hrun, hidle, hframes⟩ :=
    Tunnel.encoderRun_ok hbounded hfuel seq available (ops ++ [.flush]) hpool
  obtain ⟨ds, pending, c0, history, place, hem, hacc, hplaces, hend, hs⟩ := hidle.places
  obtain ⟨tx, htx, h8⟩ := tx_buffer_of_flush hbounded hrun
  obtain rfl := hem.pending_eq_nil htx h8
  obtain rfl := StepPath.nil_iff.mp hem.laid
  refine ⟨e, hrun, fun arrivals hdata hwait => ?_⟩
  have hholds := (arrive_range hdata).holds hem.pool
  rw [hem.pool_length] at hholds
  obtain ⟨d, hdrun, hd⟩ := decoderRun_mirrors heap hlib hfuel hplaces available' hholds honest_of_range
    hwait
  refine ⟨d, hdrun, ?_, fun hn => ?_⟩
  · rw [hd.frames, Receiver.run_range hplaces, ← List.append_nil (ds.flatMap Datagram.records), hacc,
      hframes, List.flatMap_append]
    exact List.append_nil _
  · obtain rfl : T.lib.reset = history := (Cursor.between.inj hem.start).2
    rw [hs.compressor hn, stream_eq_reset hd (congrArg Prod.fst hend)]

/-- A frame in two parts, with the wrap of the counter between them, and a compressed one. -/
theorem codec_round_trip_wrap :
    let T := Tunnel.smallestLZ4 (.inet 58023 #v[192, 0, 2, 1])
    let ops : List (Op T.B) :=
      [.encode (.ofData 20 (List.replicate 1222 65) (by rw [List.length_replicate]; decide)),
        .encode (.ofData 21 [1, 2, 3] (by decide))]
    ∃ (e : PacketEncoder (List (List UInt8)) T.B) (d : PacketDecoder (List (List UInt8)) T.B),
      e.tx_buffer_pool.pool.length = 2 ∧
      T.decoderRun (fun _ => 0) 2000 (PacketBuffer.fresh 30 10) e.tx_buffer_pool.pool = .ok () d ∧
      d.tx_buffer_pool.pool.map PacketBuffer.data = ops.flatMap (Op.accepted T) ∧
      e.compressor = some ⟨T.lib, stream T d⟩ := by
  intro T ops
  obtain ⟨⟨⟩, e, hrun, htest⟩ := Call.exists_of_okAnd
    (p := fun e : PacketEncoder (List (List UInt8)) T.B => decide (e.tx_buffer_pool.pool.length = 2 ∧
      waits (T.decoderRun (fun _ => 0) 2000 (PacketBuffer.fresh 30 10) e.tx_buffer_pool.pool) = false))
    (r := T.encoderRun 2000 0xFFFFFFFE (PacketBuffer.fresh 0 10) (ops ++ [.flush])) (by decide +kernel)
  obtain ⟨hlen, hwait⟩ := of_decide_eq_true htest
  obtain ⟨e', hrun', hround⟩ := codec_round_trip T (fun _ => StreamCompressor.literals_lossless _ _)
    (fun _ => 0) (by decide : T.B ≤ 2000) 0xFFFFFFFE (PacketBuffer.fresh 0 10)
    (PacketBuffer.fresh 30 10) ops (by rw [hrun]; rfl)
  obtain ⟨-, rfl⟩ := EStateM.Result.ok.inj (hrun.symm.trans hrun')
  obtain ⟨d, hdrun, hdata, hhistory⟩ := hround _ rfl hwait
  exact ⟨e, d, hlen, hdrun, hdata, hhistory (by decide)⟩

end SuperEthd
