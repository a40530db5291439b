import SuperEthd.RoundTrip

/-! # Datagrams in any order

Lost, duplicated and reordered datagrams of one encoder.  Nothing in a datagram says to which
frame its parts belong, so that the decoder must drop the parts that are pending whenever
the next datagram is not the one behind the last.  It does so unless the number passes for
one behind a wrap (`TakenForWrap`); then the parts of two frames may be put together
(`splices_behind_wrap`). -/
namespace SuperEthd
open PacketHeaderOptionType PacketHeaderOptionFormatType PacketEncoder

variable {H : Type} {B : Nat}

namespace PacketDecoder

/-! ## Calls with any fuel -/

section Mono
variable {cfg : DecoderConfig H} {d d' : PacketDecoder H B} {packetBuffer : PacketBuffer B}
  {fuel fuel' pos : Nat} {flag : Bool} {r : Option Bool}

/-- A loop that ends does so with more fuel. -/
theorem optionLoop_mono (h : (optionLoop cfg packetBuffer fuel pos flag).run d = .ok r d')
    (hle : fuel ≤ fuel') : (optionLoop cfg packetBuffer fuel' pos flag).run d = .ok r d' := by
  induction fuel generalizing fuel' pos flag d with
  | zero =>
    unfold optionLoop at h ⊢
    by_cases hpos : pos < packetBuffer.dataSize
    · rw [if_pos hpos] at h
      cases h
    · rw [if_neg hpos] at h ⊢
      exact h
  | succ fuel ih =>
    obtain ⟨n, rfl⟩ : ∃ n, fuel' = n + 1 := ⟨fuel' - 1, by omega⟩
    unfold optionLoop at h ⊢
    by_cases hpos : pos < packetBuffer.dataSize
    · rw [if_pos hpos] at h ⊢
      obtain ⟨p, d1, h1, h2⟩ := Call.run_bind_eq_ok.mp h
      refine Call.run_bind_eq_ok.mpr ⟨p, d1, h1, ?_⟩
      cases p with
      | none => exact h2
      | some p => exact ih h2 (Nat.le_of_succ_le_succ hle)
    · rw [if_neg hpos] at h ⊢
      exact h

theorem decode_mono (h : (decode cfg fuel packetBuffer).run d = .ok () d') (hle : fuel ≤ fuel') :
    (decode cfg fuel' packetBuffer).run d = .ok () d' := by
  obtain ⟨p, d1, h1, h2⟩ := Call.run_bind_eq_ok.mp h
  refine Call.run_bind_eq_ok.mpr ⟨p, d1, h1, ?_⟩
  cases p with
  | none => exact h2
  | some pos =>
    obtain ⟨r, d2, h3, h4⟩ := Call.run_bind_eq_ok.mp h2
    exact Call.run_bind_eq_ok.mpr ⟨r, d2, optionLoop_mono h3 hle, h4⟩

end Mono

/-! ## The sequence check -/

/-- Parts are pending, and the number passes for one behind a wrap without being the next one. -/
def TakenForWrap (d : PacketDecoder H B) (sequence : UInt32) : Prop :=
  d.last_part ≠ 0 ∧ sequence < d.last_sequence + 1 ∧
    is_sequence_wrapping sequence d.last_sequence = true ∧
    sequence ≠ nextSequence (d.last_sequence + 1)

variable {T : Tunnel H} {s0 : UInt32} {ds : List (Datagram H)} {place : Nat → Cursor H × UInt32}
  {D D' : Datagram H} {s : Receiver H} {js : List Nat} {heap : Nat → UInt8} {i j l m : Nat}
  {d d' : PacketDecoder H T.B}

/-- **Fewer than 2^31 datagrams** have different numbers. -/
theorem eq_of_sequence_eq (h : Places T s0 ds place) (hlen : ds.length < 2147483648)
    (hD : ds[l]? = some D) (hD' : ds[j]? = some D')
    (heq : D'.sequence = nextSequence (D.sequence + 1)) : j = l + 1 := by
  have hl := (List.getElem?_eq_some_iff.mp hD).1
  have hj := (List.getElem?_eq_some_iff.mp hD').1
  have h1 := h.sequence_toNat hD (by omega)
  have h2 := h.sequence_toNat hD' (by omega)
  have hone : (1 : UInt32).toNat = 1 := rfl
  have heq := congrArg UInt32.toNat heq
  rw [nextSequence_toNat, UInt32.toNat_add, hone] at heq
  generalize (nextSequence s0).toNat = u at *
  split at h1 <;> split at h2 <;> split at heq <;> omega

/-- **The sequence check errs only where a number is taken for one behind a wrap.** -/
theorem honest_of_not_taken (h : Places T s0 ds place) (hlen : ds.length < 2147483648)
    (hd : Mirrors ds place s d) (hD : ds[j]? = some D) (hnot : ¬TakenForWrap d D.sequence) :
    Honest s j D.sequence d := by
  cases hexp : s.expects with
  | none => exact Or.inr (Or.inr (hd.new hexp).last_part)
  | some j' =>
    obtain ⟨l, D', rfl, hD', hfirst, hlast, -⟩ := hd.last j' hexp
    by_cases hpart : d.last_part = 0
    · exact Or.inr (Or.inr hpart)
    by_cases hj : j = l + 1
    · exact Or.inl (hexp.trans (congrArg some hj.symm))
    right; left
    have hnext : D.sequence ≠ nextSequence (D'.sequence + 1) := fun heq =>
      hj (eq_of_sequence_eq h hlen hD' hD heq)
    -- the number that follows is the next one, unless that is `UINT32_MAX`
    have hsucc : (D.sequence == D'.sequence + 1) = false := by
      rw [beq_eq_false_iff_ne]
      intro heq
      have hmax : D.sequence ≠ 0xFFFFFFFF := by
        rw [(h.sends _ _ hD).sequence]
        unfold nextSequence
        split
        · decide
        · assumption
      rw [nextSequence, ← heq, if_neg hmax] at hnext
      exact hnext rfl
    rw [goesOn, hfirst, hlast, hsucc, Bool.false_or, Bool.false_or, Bool.and_eq_false_iff]
    by_cases hlt : D.sequence < D'.sequence + 1
    · right
      by_contra hwrap
      rw [Bool.not_eq_false] at hwrap
      exact hnot ⟨hpart, hlast ▸ hlt, hlast ▸ hwrap, hlast ▸ hnext⟩
    · exact Or.inl (decide_eq_false hlt)

/-- A call of `decode` that returns, on a datagram whose number is not taken for one behind a wrap. -/
def DecodesInSequence (cfg : DecoderConfig H) (d : PacketDecoder H B) (packetBuffer : PacketBuffer B)
    (d' : PacketDecoder H B) : Prop :=
  Decodes cfg d packetBuffer d' ∧ ¬TakenForWrap d (headerOf cfg packetBuffer).sequence

/-- **The decoder goes with the receiver**, in whatever order the datagrams come. -/
theorem path_mirrors (hlib : LosslessLib T) (h : Places T s0 ds place) (hlen : ds.length < 2147483648)
    {arrivals : List (PacketBuffer T.B)} (done : List Nat)
    (hpath : StepPath (DecodesInSequence (T.decoder heap)) d arrivals d')
    (harr : List.Forall₂ (HoldsDatagram ds) js arrivals)
    (hd : Mirrors ds place (Receiver.run ds place done) d) :
    Mirrors ds place (Receiver.run ds place (done ++ js)) d' := by
  induction hpath generalizing js done with
  | nil =>
    cases harr
    rwa [List.append_nil]
  | @cons d d1 d' packetBuffer arrivals hstep _ ih =>
    cases harr with
    | @cons j _ js _ hp harr =>
      obtain ⟨D, hD, hdata⟩ := hp
      obtain ⟨⟨fuel, hrun⟩, hnot⟩ := hstep
      rw [headerOf_eq hdata] at hnot
      have hon := honest_of_not_taken h hlen hd hD hnot
      have hd1 := (hd.decode heap hlib (Nat.le_max_right fuel T.B) h hD hdata hon).ok rfl
        (decode_mono hrun (Nat.le_max_left fuel T.B))
      rw [← Receiver.run_concat hD] at hd1
      have := ih (done ++ [j]) harr hd1
      rwa [List.append_assoc, List.singleton_append] at this

end PacketDecoder

/-! ## Integrity -/

/-- **What was delivered is intact**: it consists of frames that were accepted, numbered `ms`, and each
of them was delivered no more often than the last of its datagrams came. -/
def Intact (e : PacketEncoder H B) (js : List Nat) (d : PacketDecoder H B) : Prop :=
  ∃ ms : List Nat,
    d.tx_buffer_pool.pool.map (fun b => some b.data) = ms.map (fun m => e.accepted[m]?) ∧
    ∀ m i, (m, i) ∈ e.carriers → (∀ i', (m, i') ∈ e.carriers → i' ≤ i) → ms.count m ≤ js.count i

section
variable {T : Tunnel H} {s0 : UInt32} {ds : List (Datagram H)} {pending : List (Record H)}
  {c0 c : Cursor H} {e : PacketEncoder H T.B} {place : Nat → Cursor H × UInt32} {js : List Nat}

/-- The frames of a receiver are accepted frames. -/
theorem accepted_of_mem_run (hem : Emitted T s0 ds pending c0 c e) (h : Places T s0 ds place)
    (hend : place ds.length = (c0, e.sequence))
    (hacc : (finished (ds.flatMap Datagram.records ++ pending)).map EncodedFrame.frame = e.accepted)
    (hjs : ∀ j ∈ js, j < ds.length) {f : EncodedFrame H} (hf : f ∈ (Receiver.run ds place js).frames) :
    e.accepted[f.index]? = some f.frame := by
  obtain ⟨j, D, hD, hf⟩ := Receiver.exists_of_mem_run h hjs hf
  have hmem : f ∈ finished (ds.flatMap Datagram.records ++ pending) := by
    obtain ⟨r, hr, rfl⟩ := List.mem_map.mp hf
    refine List.mem_map.mpr ⟨r, List.mem_filter.mpr ⟨List.mem_append_left _ ?_, ?_⟩, rfl⟩
    · exact List.mem_flatMap.mpr ⟨D, List.mem_of_getElem? hD, (List.mem_filter.mp hr).1⟩
    · exact (List.mem_filter.mp hr).2
  have hzip := List.mem_map_of_mem (f := fun f : EncodedFrame H => (f.frame, f.index)) hmem
  rw [← hem.zipIdx_accepted h hend hacc] at hzip
  exact List.mem_zipIdx_iff_getElem?.mp hzip

/-- The last datagram recorded for a frame is the one it ends in, or the frame does not end in a
datagram that was sent. -/
theorem count_run_le_of_carriers (hem : Emitted T s0 ds pending c0 c e) (h : Places T s0 ds place)
    (hend : place ds.length = (c0, e.sequence)) (hjs : ∀ j ∈ js, j < ds.length) {m i : Nat}
    (hmem : (m, i) ∈ e.carriers) (hlast : ∀ i', (m, i') ∈ e.carriers → i' ≤ i) :
    ((Receiver.run ds place js).frames.map EncodedFrame.index).count m ≤ js.count i := by
  obtain ⟨hle, hindex⟩ := hem.of_mem_carriers h hend hmem
  have hends : ∀ j < ds.length, (place j).1.index ≤ m → m < (place (j + 1)).1.index → j = i := by
    intro j hj h1 h2
    have h3 := (place (j + 1)).1.index_le_started
    have hji := hlast j ((hem.mem_carriers_iff h hj).mpr ⟨h1, h2.trans_le h3⟩)
    by_contra hne
    have h4 := h.index_le (Nat.lt_of_le_of_ne hji hne) hle
    have h5 : (place (j + 1)).1.index ≤ (place i).1.index := h4
    omega
  by_cases hi : i < ds.length
  · exact Receiver.count_run_le h hjs hi hends
  · -- it is carried by the datagram that was not sent
    have hzero : ((Receiver.run ds place js).frames.map EncodedFrame.index).count m = 0 := by
      refine List.count_eq_zero.mpr fun hm => ?_
      obtain ⟨f, hf, rfl⟩ := List.mem_map.mp hm
      obtain ⟨j, D, hD, hf⟩ := Receiver.exists_of_mem_run h hjs hf
      have hj := (List.getElem?_eq_some_iff.mp hD).1
      obtain ⟨h1, h2⟩ := (h.emits hD).index_of_finished hf
      have := hends j hj h1 h2
      omega
    rw [hzero]
    exact Nat.zero_le _

end

open PacketDecoder

/-- **Integrity under any arrival order.**  Of the datagrams of a run of an encoder without
compression, fewer than 2^31, any come in any order, any number of times.  If none is taken
for one behind a wrap, what the decoder delivers is intact. -/
theorem intact_of_path {T : Tunnel H} (hnone : T.packet_format = NONE) {fuel : Nat} {seq : UInt32}
    {available available' arrivals : List (PacketBuffer T.B)} {ops : List (Op T.B)}
    {e : PacketEncoder H T.B} (hrun : T.encoderRun fuel seq available ops = .ok () e)
    (hlen : e.tx_buffer_pool.pool.length < 2147483648) {heap : Nat → UInt8}
    {d0 d : PacketDecoder H T.B} (hstart : PacketDecoder.Starts (T.decoder heap) available' d0)
    {js : List Nat} (harr : Arrive e js arrivals)
    (hpath : StepPath (DecodesInSequence (T.decoder heap)) d0 arrivals d) : Intact e js d := by
  have hidle := idle_of_encoderRun (fun hn => absurd hnone hn) hrun
  obtain ⟨ds, pending, c0, history, place, hem, hacc, hplaces, hend, -⟩ := hidle.places
  rw [hem.pool_length] at hlen
  have hholds := harr.holds hem.pool
  have hjs : ∀ j ∈ js, j < ds.length := by
    intro j hj
    obtain ⟨k, hk, rfl⟩ := List.getElem_of_mem hj
    obtain ⟨D, hD, -⟩ := hholds.get hk (hholds.length_eq ▸ hk)
    exact (List.getElem?_eq_some_iff.mp hD).1
  have hd : Mirrors ds place (Receiver.run ds place js) d :=
    path_mirrors (fun hn => absurd hnone hn) hplaces hlen [] hpath hholds hstart.mirrors
  refine ⟨(Receiver.run ds place js).frames.map EncodedFrame.index, ?_, fun m i hmem hlast =>
    count_run_le_of_carriers hem hplaces hend hjs hmem hlast⟩
  have hframes := congrArg (List.map some) hd.frames
  rw [List.map_map, List.map_map] at hframes
  rw [List.map_map]
  refine hframes.trans (List.map_congr_left fun f hf => ?_)
  exact (accepted_of_mem_run hem hplaces hend hacc hjs hf).symm

/-- A number from 2^31 on does not pass for one behind a wrap. -/
theorem not_takenForWrap_of_le {d : PacketDecoder H B} {sequence : UInt32}
    (h : 0x80000000 ≤ sequence) : ¬TakenForWrap d sequence := by
  rintro ⟨-, -, hwrap, -⟩
  rw [is_sequence_wrapping, Bool.and_eq_true, decide_eq_true_iff, decide_eq_true_iff] at hwrap
  obtain ⟨hlt, hgt⟩ := hwrap
  have hmax := d.last_sequence.toNat_lt
  have hsub := UInt32.toNat_sub_of_le _ _ (UInt32.le_of_lt hlt)
  have h1 : 2147483648 ≤ sequence.toNat := UInt32.le_iff_toNat_le.mp h
  have h2 : 2147483647 < (d.last_sequence - sequence).toNat := UInt32.lt_iff_toNat_lt.mp hgt
  omega

/-- A frame in two parts and a small one, in three datagrams: the last comes first, and two of them
come twice. -/
theorem intact_of_path_reordered :
    let T := Tunnel.smallest (.inet 58023 #v[192, 0, 2, 1])
    ∃ (e : PacketEncoder (List (List UInt8)) T.B) (d : PacketDecoder (List (List UInt8)) T.B),
      d.tx_buffer_pool.pool.length = 3 ∧ Intact e [2, 0, 1, 1, 2] d := by
  intro T
  let arrivals : PacketEncoder (List (List UInt8)) T.B → List (PacketBuffer T.B) := fun e =>
    [2, 0, 1, 1, 2].filterMap (e.tx_buffer_pool.pool[·]?)
  let ops : List (Op T.B) :=
    [.encode (.ofData 20 (List.replicate 1222 65) (by rw [List.length_replicate]; decide)), .flush,
      .encode (.ofData 21 [1, 2, 3] (by decide)), .flush]
  let cfg := T.decoder fun _ => 0
  obtain ⟨⟨⟩, e, hrun, htest⟩ := Call.exists_of_okAnd
    (p := fun e : PacketEncoder (List (List UInt8)) T.B => decide (e.tx_buffer_pool.pool.length = 3 ∧
      Arrive e [2, 0, 1, 1, 2] (arrivals e) ∧
      (∀ b ∈ arrivals e, 0x80000000 ≤ (headerOf cfg b).sequence) ∧
      Call.okAnd (fun d => d.tx_buffer_pool.pool.length == 3)
        (T.decoderRun (fun _ => 0) 2000 (PacketBuffer.fresh 30 10) (arrivals e)) = true))
    (r := T.encoderRun 2000 0x80000000 (PacketBuffer.fresh 0 10) ops) (by decide +kernel)
  obtain ⟨hlen, harr, hhigh, hok⟩ := of_decide_eq_true htest
  obtain ⟨⟨⟩, d, hdrun, hdelivered⟩ := Call.exists_of_okAnd hok
  obtain ⟨d0, hstart, hpath⟩ := path_of_decoderRun hdrun
  have hpath' : StepPath (DecodesInSequence cfg) d0 (arrivals e) d := hpath.imp fun b hb _ _ hdec =>
    ⟨hdec, not_takenForWrap_of_le (hhigh b hb)⟩
  exact ⟨e, d, beq_iff_eq.mp hdelivered, intact_of_path rfl hrun (by rw [hlen]; decide) hstart harr hpath'⟩

/-- **Two frames are put together** when what lies between their parts is lost at the wrap: the first
part of the one, with number `UINT32_MAX - 1`, is followed by the second part of the other, with
number 3. -/
theorem splices_behind_wrap :
    let T := Tunnel.smallest (.inet 58023 #v[192, 0, 2, 1])
    let cfg := T.decoder fun _ => 0
    let ops : List (Op T.B) :=
      [.encode (.ofData 20 (List.replicate 1222 65) (by rw [List.length_replicate]; decide)), .flush,
        .encode (.ofData 21 (List.replicate 1222 66) (by rw [List.length_replicate]; decide)), .flush]
    ∃ (e : PacketEncoder (List (List UInt8)) T.B) (d0 d : PacketDecoder (List (List UInt8)) T.B)
      (arrivals : List (PacketBuffer T.B)),
      T.encoderRun 2000 4294967294 (PacketBuffer.fresh 0 10) ops = .ok () e ∧
      e.tx_buffer_pool.pool.length < 2147483648 ∧
      PacketDecoder.Starts cfg (PacketBuffer.fresh 30 10) d0 ∧ Arrive e [0, 3] arrivals ∧
      StepPath (Decodes cfg) d0 arrivals d ∧
      d.tx_buffer_pool.pool.map PacketBuffer.data =
        [List.replicate 1136 65 ++ List.replicate 86 66] ∧
      ¬Intact e [0, 3] d := by
  intro T cfg ops
  let arrivals : PacketEncoder (List (List UInt8)) T.B → List (PacketBuffer T.B) := fun e =>
    [0, 3].filterMap (e.tx_buffer_pool.pool[·]?)
  let splice : List UInt8 := List.replicate 1136 65 ++ List.replicate 86 66
  obtain ⟨⟨⟩, e, hrun, htest⟩ := Call.exists_of_okAnd
    (p := fun e : PacketEncoder (List (List UInt8)) T.B => decide (e.tx_buffer_pool.pool.length = 4 ∧
      Arrive e [0, 3] (arrivals e) ∧ splice ∉ e.accepted ∧
      Call.okAnd (fun d => d.tx_buffer_pool.pool.map PacketBuffer.data == [splice])
        (T.decoderRun (fun _ => 0) 2000 (PacketBuffer.fresh 30 10) (arrivals e)) = true))
    (r := T.encoderRun 2000 4294967294 (PacketBuffer.fresh 0 10) ops) (by decide +kernel)
  obtain ⟨hlen, harr, hsplice, hok⟩ := of_decide_eq_true htest
  obtain ⟨⟨⟩, d, hdrun, hdelivered⟩ := Call.exists_of_okAnd hok
  obtain ⟨d0, hstart, hpath⟩ := path_of_decoderRun hdrun
  have hdata : d.tx_buffer_pool.pool.map PacketBuffer.data = [splice] := beq_iff_eq.mp hdelivered
  refine ⟨e, d0, d, arrivals e, hrun, by rw [hlen]; decide, hstart, harr, hpath, hdata, ?_⟩
  rintro ⟨ms, hms, -⟩
  have hsome : d.tx_buffer_pool.pool.map (fun b => some b.data) = [some splice] := by
    have := congrArg (List.map some) hdata
    rwa [List.map_map] at this
  rw [hsome] at hms
  -- it would have to be one of the accepted frames
  obtain ⟨m, -, hm⟩ := List.mem_map.mp (hms ▸ List.mem_cons_self : some splice ∈ ms.map fun m => e.accepted[m]?)
  exact hsplice (List.mem_of_getElem? hm)

end SuperEthd
