import SuperEthd.Receiver

/-! # The decoder as a receiver

A `PacketDecoder` that is given datagrams of a stream goes with the abstract receiver
(`Mirrors.decode`), as long as its sequence check tells whether a datagram is the next one.
The check errs in one place: a number that looks like one behind a wrap goes on with the
parts that are pending, whichever datagram it is of. -/
namespace SuperEthd
open PacketHeaderOptionType PacketHeaderOptionFormatType PacketEncoder

variable {H : Type} {T : Tunnel H} {s0 : UInt32} {ds : List (Datagram H)}
  {place : Nat → Cursor H × UInt32} {D : Datagram H} {js : List Nat} {i j l : Nat}

/-! ## Numbers -/

theorem nextSequence_toNat (n : UInt32) :
    (nextSequence n).toNat = if n.toNat = 4294967295 then 1 else n.toNat := by
  have hmax : n = 0xFFFFFFFF ↔ n.toNat = 4294967295 := by
    simp only [← UInt32.toNat_inj, UInt32.reduceToNat]
  unfold nextSequence
  by_cases h : n = 0xFFFFFFFF
  · rw [if_pos h, if_pos (hmax.mp h)]
    rfl
  · rw [if_neg h, if_neg (mt hmax.mpr h)]

theorem nextSequence_le (n : UInt32) : (nextSequence n).toNat ≤ 4294967294 := by
  have hlt := n.toNat_lt
  rw [nextSequence_toNat]
  split <;> omega

/-- The number of a datagram is one behind that of the one before. -/
theorem Places.sequence_succ (h : Places T s0 ds place) {D' : Datagram H} (hD : ds[i]? = some D)
    (hD' : ds[i + 1]? = some D') : D'.sequence = nextSequence (D.sequence + 1) := by
  rw [(h.sends _ _ hD').sequence, (h.sends _ _ hD).counter]

/-- **The number of datagram `i`**, which has come at most once around. -/
theorem Places.sequence_toNat (h : Places T s0 ds place) (hD : ds[i]? = some D)
    (hi : i ≤ 4294967294) : D.sequence.toNat =
      if (nextSequence s0).toNat + i ≤ 4294967294 then (nextSequence s0).toNat + i
      else (nextSequence s0).toNat + i - 4294967294 := by
  have hstart := nextSequence_le s0
  induction i generalizing D with
  | zero =>
    rw [(h.sends _ _ hD).sequence, h.zero, Nat.add_zero, if_pos hstart]
  | succ i ih =>
    have hlt := (List.getElem?_eq_some_iff.mp hD).1
    have hDi := List.getElem?_eq_getElem (Nat.lt_of_succ_lt hlt)
    have ih := ih hDi (Nat.le_of_succ_le hi)
    have hone : (1 : UInt32).toNat = 1 := rfl
    generalize (nextSequence s0).toNat = u at *
    rw [h.sequence_succ hDi hD, nextSequence_toNat, UInt32.toNat_add, ih, hone]
    by_cases hu : u + i ≤ 4294967294
    · rw [if_pos hu]
      split <;> split <;> omega
    · rw [if_neg hu, if_neg (show ¬u + (i + 1) ≤ 4294967294 by omega), if_neg (by omega)]
      omega

namespace PacketDecoder
variable {heap : Nat → UInt8} {d d' : PacketDecoder H T.B} {packetBuffer : PacketBuffer T.B}
  {s : Receiver H} {fuel : Nat} {sequence : UInt32}

/-- The number after the last one goes on, also behind a wrap. -/
theorem goesOn_next (hlast : d.last_sequence = sequence) :
    d.goesOn (nextSequence (sequence + 1)) = true := by
  unfold goesOn nextSequence
  rw [hlast]
  by_cases hmax : sequence + 1 = 0xFFFFFFFF
  · obtain rfl : sequence = 0xFFFFFFFE := by
      have hlt := sequence.toNat_lt
      simp only [← UInt32.toNat_inj, UInt32.toNat_add, UInt32.reduceToNat] at hmax ⊢
      omega
    rw [if_pos hmax]
    simp only [Bool.or_eq_true]
    exact Or.inr (by decide)
  · rw [if_neg hmax, beq_self_eq_true, Bool.or_true, Bool.true_or]

/-! ## One datagram -/

/-- **The decoder is where the receiver is**, and has delivered the same frames. -/
structure Mirrors (ds : List (Datagram H)) (place : Nat → Cursor H × UInt32) (s : Receiver H)
    (d : PacketDecoder H T.B) : Prop where
  frames : d.tx_buffer_pool.pool.map PacketBuffer.data = s.frames.map EncodedFrame.frame
  new : s.expects = none → Blank T d
  last : ∀ j ∈ s.expects, ∃ l D, j = l + 1 ∧ ds[l]? = some D ∧ d.first_packet = false ∧
    d.last_sequence = D.sequence ∧ Reads T s.synced (place j).1 d

/-- A decoder in which no part is pending holds nothing. -/
theorem Reads.blank (h : Places T s0 ds place) (hj : j ≤ ds.length) {synced : Bool}
    (hd : Reads T synced (place j).1 d) (hpart : d.last_part = 0) : Blank T d := by
  cases synced with
  | false => exact hd
  | true =>
    have hcut := h.cut hj
    cases hc : (place j).1 with
    | between n history =>
      rw [hc] at hd hcut
      obtain rfl : T.lib.reset = history := (Cursor.between.inj hcut).2
      exact hd
    | full f k off =>
      rw [hc] at hcut
      exact absurd hcut nofun
    | inside f k off =>
      rw [hc] at hd
      have hk : 0 < k ∧ k ≤ 255 := by
        cases j with
        | zero =>
          rw [h.zero] at hc
          exact absurd hc nofun
        | succ j =>
          have hemits := h.emits (List.getElem?_eq_getElem hj)
          rw [hc] at hemits
          exact hemits.part_of_inside
      have hlast : d.last_part = UInt8.ofNat k := hd.last_part
      simp only [hpart, ← UInt8.toNat_inj, UInt8.toNat_ofNat', UInt8.reduceToNat] at hlast
      omega

/-- The sequence check sees the datagram as it is: as the next one, or as one that does not go on,
unless no part is pending. -/
def Honest (s : Receiver H) (j : Nat) (sequence : UInt32) (d : PacketDecoder H T.B) : Prop :=
  s.expects = some j ∨ d.goesOn sequence = false ∨ d.last_part = 0

variable (heap) in
/-- After the sequence check of an honest datagram. -/
theorem Mirrors.arrived (hm : Mirrors ds place s d) (h : Places T s0 ds place)
    (hD : ds[j]? = some D) (hon : Honest s j D.sequence d) :
    (∃ tx, d.tx_buffer = some tx) ∧
      Reads T (s.goesOn j) (place j).1 (d.arrived (T.decoder heap) D.sequence) ∧
      Delivered T D.sequence (s.frames.map EncodedFrame.frame)
        (d.arrived (T.decoder heap) D.sequence) := by
  -- with no part pending the answer of the check makes no difference
  have hblank : Blank T d → s.goesOn j = false → (∃ tx, d.tx_buffer = some tx) ∧
      Reads T (s.goesOn j) (place j).1 (d.arrived (T.decoder heap) D.sequence) ∧
      Delivered T D.sequence (s.frames.map EncodedFrame.frame)
        (d.arrived (T.decoder heap) D.sequence) := by
    intro hb hgo
    have hr : Reads T false (place j).1 d := hb
    have harr := arrived_follows heap D.sequence hr hm.frames
    rw [Bool.false_and] at harr
    rw [hgo]
    exact ⟨hr.buffers.1, harr⟩
  cases hexp : s.expects with
  | none => exact hblank (hm.new hexp) (by rw [Receiver.goesOn, hexp]; exact Bool.and_false _)
  | some j' =>
    obtain ⟨l, D', rfl, hD', hfirst, hlast, hreads⟩ := hm.last j' hexp
    by_cases hj : l + 1 = j
    · -- the next one
      subst hj
      have hgo : s.goesOn (l + 1) = s.synced := by
        rw [Receiver.goesOn, hexp, beq_self_eq_true, Bool.and_true]
      have harr := arrived_follows heap D.sequence hreads hm.frames
      rw [h.sequence_succ hD' hD, goesOn_next hlast, Bool.and_true, ← h.sequence_succ hD' hD] at harr
      rw [hgo]
      exact ⟨hreads.buffers.1, harr⟩
    · have hgo : s.goesOn j = false := by
        rw [Receiver.goesOn, hexp, Bool.and_eq_false_iff, beq_eq_false_iff_ne]
        exact Or.inr fun h => hj (Option.some.inj h)
      rcases hon with hon | hon | hon
      · exact absurd (Option.some.inj (hexp.symm.trans hon)) hj
      · have harr := arrived_follows heap D.sequence hreads hm.frames
        rw [hon, Bool.and_false] at harr
        rw [hgo]
        exact ⟨hreads.buffers.1, harr⟩
      · have hl := (List.getElem?_eq_some_iff.mp hD').1
        exact hblank (hreads.blank h hl hon) hgo

variable (heap) in
/-- **One datagram** of the stream, if the sequence check sees it as it is. -/
theorem Mirrors.decode (hlib : LosslessLib T) (hfuel : T.B ≤ fuel) (hm : Mirrors ds place s d)
    (h : Places T s0 ds place) (hD : ds[j]? = some D)
    (hdata : packetBuffer.data = D.bytes T.host) (hon : Honest s j D.sequence d) :
    Call.Meets (· = d) (PacketDecoder.decode (T.decoder heap) fuel packetBuffer)
      (fun _ => Mirrors ds place (s.receive j (place j).1 D)) (fun x _ => x = .blocked) := by
  obtain ⟨htx, harr⟩ := hm.arrived heap h hD hon
  have hj := (List.getElem?_eq_some_iff.mp hD).1
  refine (decode_datagram hlib hfuel (h.emits hD) (h.cut hj.le) hdata htx harr).mono (fun _ h => h)
    (fun _ d' => ?_) (fun _ _ h => h)
  rintro ⟨hreads, hdel⟩
  refine ⟨?_, nofun, ?_⟩
  · rw [hdel.frames, Receiver.receive, List.map_append]
  · rintro _ ⟨⟩
    exact ⟨j, D, rfl, hD, hdel.first_packet, hdel.last_sequence, hreads⟩

/-! ## Runs -/

theorem Starts.mirrors {available : List (PacketBuffer T.B)}
    (h : Starts (T.decoder heap) available d) : Mirrors ds place .new d := by
  obtain ⟨dc, tx, rest, -, rfl⟩ := h.eq
  refine ⟨rfl, fun _ => ⟨rfl, fun h => absurd h (Nat.lt_irrefl 0), ⟨_, rfl, rfl⟩, ⟨_, rfl⟩, ?_⟩,
    nofun⟩
  rw [stream, Tunnel.lib]
  split <;> rfl

/-- The buffer holds datagram `j` of the stream. -/
def HoldsDatagram (ds : List (Datagram H)) (j : Nat) (packetBuffer : PacketBuffer T.B) : Prop :=
  ∃ D, ds[j]? = some D ∧ packetBuffer.data = D.bytes T.host

/-- **Calls of `decode`** on datagrams that the sequence check sees as they are. -/
theorem runAll_mirrors (hlib : LosslessLib T) (hfuel : T.B ≤ fuel) (h : Places T s0 ds place)
    {js : List Nat} {arrivals : List (PacketBuffer T.B)}
    (harr : List.Forall₂ (HoldsDatagram ds) js arrivals) (done : List Nat)
    (hon : ∀ js1 j js2 D d, done ++ js = js1 ++ j :: js2 → ds[j]? = some D →
      Mirrors ds place (Receiver.run ds place js1) d →
      Honest (T := T) (Receiver.run ds place js1) j D.sequence d) :
    Call.Meets (Mirrors ds place (Receiver.run ds place done))
      (Call.runAll (PacketDecoder.decode (T.decoder heap) fuel) arrivals)
      (fun _ => Mirrors ds place (Receiver.run ds place (done ++ js)))
      (fun x _ => x = .blocked) := by
  induction harr generalizing done with
  | nil =>
    rw [List.append_nil]
    exact .pure (Q := fun _ => Mirrors ds place (Receiver.run ds place done)) ()
  | @cons j packetBuffer js arrivals hp _ ih =>
    obtain ⟨D, hD, hdata⟩ := hp
    have happend : done ++ j :: js = done ++ [j] ++ js := by
      rw [List.append_assoc, List.singleton_append]
    rw [happend] at hon ⊢
    refine Call.Meets.bind (Q := fun _ => Mirrors ds place (Receiver.run ds place (done ++ [j])))
      (fun d hd => ?_) fun _ => ih (done ++ [j]) hon
    rw [Receiver.run_concat hD]
    exact hd.decode heap hlib hfuel h hD hdata (hon done j js D d happend.symm hD hd) d rfl

variable (heap) in
/-- **A run of the decoder**, from the constructor on: it returns, unless it has to wait for a buffer. -/
theorem decoderRun_mirrors (hlib : LosslessLib T) (hfuel : T.B ≤ fuel) (h : Places T s0 ds place)
    {js : List Nat} (available : List (PacketBuffer T.B)) {arrivals : List (PacketBuffer T.B)}
    (harr : List.Forall₂ (HoldsDatagram ds) js arrivals)
    (hon : ∀ js1 j js2 D d, js = js1 ++ j :: js2 → ds[j]? = some D →
      Mirrors ds place (Receiver.run ds place js1) d →
      Honest (T := T) (Receiver.run ds place js1) j D.sequence d)
    (hwait : waits (T.decoderRun heap fuel available arrivals) = false) :
    ∃ d, T.decoderRun heap fuel available arrivals = .ok () d ∧
      Mirrors ds place (Receiver.run ds place js) d := by
  have hnew : Call.Meets (· = init (T.decoder heap) ⟨[]⟩ ⟨available⟩) new
      (fun _ => Mirrors ds place (Receiver.run ds place [])) (fun x _ => x = .blocked) := by
    rintro _ rfl
    rcases new_run (T.decoder heap) ⟨[]⟩ available with ⟨d', hb⟩ | ⟨dc, tx, rest, -, hrun⟩
    · rw [hb]
    · rw [hrun]
      have hstart : Starts (T.decoder heap) available _ := hrun
      exact hstart.mirrors
  rcases (hnew.bind fun _ => runAll_mirrors hlib hfuel h harr [] hon).of_run rfl with
    ⟨⟨⟩, d, hrun, hd⟩ | ⟨x, d, hrun, rfl⟩
  · exact ⟨d, hrun, hd⟩
  · rw [Tunnel.decoderRun, Tunnel.decoderCalls, hrun] at hwait
    exact absurd hwait (by simp [waits])

/-! ## When the sequence check is right -/

/-- A number that is not the next one does not go on, unless it is lower by half of all numbers. -/
theorem goesOn_eq_false (hfirst : d.first_packet = false) (hne : sequence.toNat ≠ d.last_sequence.toNat + 1)
    (hnear : d.last_sequence.toNat < sequence.toNat + 2147483648)
    (hmax : d.last_sequence.toNat < 4294967295) : d.goesOn sequence = false := by
  have hone : (1 : UInt32).toNat = 1 := rfl
  have hnext : (d.last_sequence + 1).toNat = d.last_sequence.toNat + 1 := by
    rw [UInt32.toNat_add, hone]
    omega
  have hnot : (sequence == d.last_sequence + 1) = false := by
    rw [beq_eq_false_iff_ne]
    intro heq
    exact hne ((congrArg UInt32.toNat heq).trans hnext)
  have hwrap : is_sequence_wrapping sequence d.last_sequence = false := by
    rw [is_sequence_wrapping, Bool.and_eq_false_iff]
    by_cases hlt : sequence < d.last_sequence
    · have hsub := UInt32.toNat_sub_of_le _ _ (UInt32.le_of_lt hlt)
      have hhalf : (0xFFFFFFFF / 2 : UInt32).toNat = 2147483647 := rfl
      exact Or.inr (decide_eq_false (by rw [gt_iff_lt, UInt32.lt_iff_toNat_lt]; omega))
    · exact Or.inl (decide_eq_false hlt)
  rw [goesOn, hfirst, hnot, hwrap, Bool.and_false]
  rfl

/-- The next datagram. -/
theorem honest_of_next (hjs : ∀ j ∈ js, j < ds.length) (hlast : js.getLast? = some l) :
    Honest (Receiver.run ds place js) (l + 1) sequence d := by
  left
  rw [Receiver.expects_run hjs, hlast]
  rfl

/-- A datagram that is not the next one, where the numbers do not wrap. -/
theorem Mirrors.goesOn_of_ne (hm : Mirrors ds place s d) (h : Places T s0 ds place)
    (hexp : s.expects = some (l + 1)) (hne : j ≠ l + 1) (hnear : l < j + 2147483648)
    (hl : (nextSequence s0).toNat + l ≤ 4294967294) (hj : (nextSequence s0).toNat + j ≤ 4294967294)
    (hD : ds[j]? = some D) : d.goesOn D.sequence = false := by
  obtain ⟨l', D', heq, hD', hfirst, hlast, -⟩ := hm.last _ hexp
  obtain rfl : l = l' := Nat.succ.inj heq
  have h1 := h.sequence_toNat hD' (by omega)
  have h2 := h.sequence_toNat hD (by omega)
  rw [if_pos hl] at h1
  rw [if_pos hj] at h2
  refine goesOn_eq_false hfirst ?_ ?_ ?_ <;> rw [hlast] <;> omega

/-- A datagram behind a gap. -/
theorem Mirrors.goesOn_of_gap (hm : Mirrors ds place s d) (h : Places T s0 ds place)
    (hwrap : (nextSequence s0).toNat + ds.length ≤ 4294967295) (hexp : s.expects = some (l + 1))
    (hlt : l + 1 < j) (hD : ds[j]? = some D) : d.goesOn D.sequence = false := by
  have hj := (List.getElem?_eq_some_iff.mp hD).1
  exact hm.goesOn_of_ne h hexp (by omega) (by omega) (by omega) (by omega) hD

end PacketDecoder
end SuperEthd
