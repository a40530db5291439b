import SuperEthd.DecoderRefinement

/-! # Receiving datagrams

What one datagram of a stream does to a decoder (`decode_datagram`).  The decoder is synced
with the place where the datagram starts, or holds nothing; then it misses the frame that the
datagram goes on with, if any, and is synced again behind the end of that frame. -/
namespace SuperEthd
open PacketHeaderOptionType PacketHeaderOptionFormatType

variable {H : Type}

namespace Datagram

/-- The frames that a decoder gets from the datagram, which starts at `c`. -/
def received (c : Cursor H) (synced : Bool) (D : Datagram H) : List (EncodedFrame H) :=
  match c, synced with
  | .inside _ _ _, false => finished D.records.tail
  | _, _ => finished D.records

/-- Whether the decoder is synced behind it. -/
def syncs (c : Cursor H) (synced : Bool) (D : Datagram H) : Bool :=
  match c, synced with
  | .inside _ _ _, false => D.records.head?.any Record.finishes
  | _, _ => true

end Datagram

namespace PacketDecoder
variable {T : Tunnel H} {heap : Nat → UInt8} {d d' : PacketDecoder H T.B}
  {packetBuffer : PacketBuffer T.B} {sequence : UInt32} {fs : List (List UInt8)} {r : Record H}
  {pre : List UInt8} {flag : Bool} {c c' : Cursor H} {rs : List (Record H)} {fuel : Nat}

/-- The decoder is at the cursor, or it holds nothing. -/
def Reads (T : Tunnel H) (synced : Bool) (c : Cursor H) (d : PacketDecoder H T.B) : Prop :=
  if synced then At T c d else Blank T d

/-- No record stands behind a part that fills its datagram. -/
theorem path_full {f : EncodedFrame H} {k off : Nat} (h : StepPath (Follows T) (.full f k off) rs c) :
    rs = [] ∧ c = .full f k off := by
  cases h with
  | nil => exact ⟨rfl, rfl⟩
  | cons h => cases h

/-- **A decoder that holds nothing** skips the record that goes on with a frame, and takes the others
if the frame ends there. -/
theorem optionLoop_blank {f : EncodedFrame H} {k off : Nat} (hlib : LosslessLib T)
    (hpath : StepPath (Follows T) (.inside f k off) (r :: rs) c') (h : Blank T d)
    (hd : Delivered T sequence fs d)
    (hdata : packetBuffer.data = pre ++ (r :: rs).flatMap Record.bytes)
    (hfuel : (r :: rs).length ≤ fuel) :
    Call.Meets (· = d) (optionLoop (T.decoder heap) packetBuffer fuel pre.length flag)
      (fun p d' => ∃ flag', p = some flag' ∧ Flagged T flag' c' ∧ Reads T r.finishes c' d' ∧
        Delivered T sequence (fs ++ (finished rs).map EncodedFrame.frame) d')
      (fun x _ => x = .blocked) := by
  have hs := Stands.of_cons rs hdata
  have hlt : pre.length < packetBuffer.dataSize := by
    have := hs.size_le
    rw [Record.size] at this
    have h8 : PacketHeaderOption.size = 8 := rfl
    omega
  obtain ⟨fuel, rfl⟩ : ∃ n, fuel = n + 1 := ⟨fuel - 1, by rw [List.length_cons] at hfuel; omega⟩
  rw [List.length_cons] at hfuel
  have hpos : pre.length + r.size = (pre ++ r.bytes).length := by
    rw [List.length_append, r.bytes_length]
  have hdata' : packetBuffer.data = pre ++ r.bytes ++ rs.flatMap Record.bytes := by
    rw [hdata, List.flatMap_cons, List.append_assoc]
  obtain ⟨c1, hr, hrest⟩ := StepPath.cons_iff.mp hpath
  -- the record is skipped
  have hskip : ∀ {k : Nat}, r.of.Valid T → r.part = k + 1 → 0 < k → k < 255 →
      Call.Meets (· = d) (decodeOption (T.decoder heap) packetBuffer pre.length flag)
        (fun p d' => p = some (pre.length + r.size, false) ∧ Delivered T sequence fs d' ∧ Blank T d')
        (fun x _ => x = .blocked) := fun hf hpart hk hk' => by
    refine (takeOption_skip hf hpart hk hk' h hd hs).bind fun p => ?_
    rintro d1 ⟨rfl, h1⟩
    exact ⟨rfl, h1⟩
  unfold optionLoop
  rw [if_pos hlt]
  cases hr with
  | @next f k off len fits hf hk hk' h0 hlt =>
    obtain ⟨rfl, rfl⟩ := path_full hrest
    have hfin : Record.finishes (Record.mk f (k + 1) off len fits) = false := by
      simp [Record.finishes]
      omega
    refine (hskip hf rfl hk hk').bind fun p => ?_
    rintro d1 ⟨rfl, hd1, h1⟩
    have hend : ¬pre.length + Record.size ⟨f, k + 1, off, len, fits⟩ < packetBuffer.dataSize := by
      rw [hpos, ← packetBuffer.data_length, hdata', List.flatMap_nil, List.append_nil]
      exact Nat.lt_irrefl _
    simp only [finished_nil, List.map_nil, List.append_nil, hfin]
    unfold optionLoop
    rw [if_neg hend]
    exact ⟨false, rfl, rfl, h1, hd1⟩
  | @last f k off len fits hf hk hk' h0 hend =>
    have hfin : Record.finishes (Record.mk f (k + 1) off len fits) = true := by
      simp [Record.finishes]
      omega
    refine (hskip hf rfl hk hk').bind fun p => ?_
    rintro d1 ⟨rfl, hd1, h1⟩
    have h2 := optionLoop_follows heap false fuel hlib hrest h1 hd1 hdata' (by omega)
      (fun _ _ => rfl) d1 rfl
    rw [← hpos] at h2
    rw [hfin]
    exact h2

/-! ## The header -/

/-- The header in memory is the one the encoder wrote. -/
theorem header_fits (sequence : UInt32) : (PacketEncoder.header sequence 1).Fits :=
  ⟨show 1 < 16 by decide, show 1 < 16 by decide, show 0 < 2 by decide, show 0 < 2 by decide,
    show 0 < 64 by decide⟩

theorem headerOf_eq {D : Datagram H} (hdata : packetBuffer.data = D.bytes T.host) :
    headerOf (T.decoder heap) packetBuffer = PacketEncoder.header D.sequence 1 := by
  have hlen : PacketHeader.size ≤ packetBuffer.dataSize := by
    rw [← packetBuffer.data_length, hdata, Datagram.bytes_length, Datagram.size]
    exact Nat.le_add_right _ _
  refine PacketHeader.read_bytes T.host (header_fits D.sequence) fun i hi => ?_
  rw [PacketBuffer.byteAt_of_lt (hi.trans_le hlen), hdata, Datagram.bytes,
    List.getD_append _ _ _ _ (by rw [PacketHeader.bytes_length]; exact hi)]

/-- **The header of a datagram of the stream** passes every check. -/
theorem decodeHeader_follows {D : Datagram H} {E : Stop → PacketDecoder H T.B → Prop}
    (hpath : StepPath (Follows T) c D.records c') (hne : D.records ≠ [])
    (hdata : packetBuffer.data = D.bytes T.host) (htx : ∃ tx, d.tx_buffer = some tx) :
    Call.Meets (· = d) (decodeHeader (T.decoder heap) packetBuffer)
      (fun p d' => p = some PacketHeader.size ∧ d' = d.arrived (T.decoder heap) D.sequence) E := by
  obtain ⟨tx, htx⟩ := htx
  obtain ⟨r, rs, hrs⟩ := List.exists_cons_of_ne_nil hne
  rw [hrs] at hpath
  obtain ⟨c1, hr, -⟩ := StepPath.cons_iff.mp hpath
  have hs : Stands packetBuffer ((PacketEncoder.header D.sequence 1).bytes T.host) r :=
    .of_cons rs (by rw [hdata, Datagram.bytes, hrs])
  have hsize := hs.size_le
  have hopt := optionAt_eq hr.valid hs heap
  rw [PacketHeader.bytes_length] at hsize hopt
  rw [Record.size] at hsize
  have hshort : ¬packetBuffer.dataSize < PacketHeader.size := by omega
  obtain ⟨tx1, htx1, -⟩ := arrived_tx_buffer (T.decoder heap) D.sequence htx
  have hvalid : r.option.typeIsValid = true := by
    rw [PacketHeaderOption.typeIsValid, Record.option]
    simp only
    split
    · decide
    · split <;> decide
  have hpass : (1 = 1) ∧ PacketHeaderOption.size ≤ packetBuffer.dataSize - PacketHeader.size ∧
      (optionAt (T.decoder heap) packetBuffer PacketHeader.size).reserved = 0 ∧
      (optionAt (T.decoder heap) packetBuffer PacketHeader.size).typeIsValid = true := by
    refine ⟨rfl, by omega, ?_, ?_⟩
    · rw [hopt]
      rfl
    · rw [hopt]
      exact hvalid
  unfold decodeHeader
  rw [if_neg hshort]
  simp only [headerOf_eq hdata]
  refine .bind_returns (checkSequence_run htx) (.returns ((scanOptions_run htx1 1).trans
    (if_pos hpass)) ⟨rfl, rfl⟩)

/-! ## A whole datagram -/

theorem Reads.buffers {synced : Bool} (h : Reads T synced c d) :
    (∃ tx, d.tx_buffer = some tx) ∧ ∃ dc, d.dcomp_buffer = some dc := by
  have hold : ∀ {k format size bytes history}, Holding T k format size bytes history d →
      (∃ tx, d.tx_buffer = some tx) ∧ ∃ dc, d.dcomp_buffer = some dc :=
    fun h => ⟨h.tx_buffer.imp fun _ h => h.1, h.dcomp_buffer⟩
  cases synced with
  | false => exact hold h
  | true => cases c <;> exact hold h

/-- The number of the last datagram and the inflight list do not matter. -/
theorem Reads.congr {synced : Bool} (h : Reads T synced c d)
    (hpart : d'.last_part = d.last_part) (hformat : d'.last_format = d.last_format)
    (hsize : d'.last_orig_packet_size = d.last_orig_packet_size)
    (htx : d'.tx_buffer = d.tx_buffer) (hdc : d'.dcomp_buffer = d.dcomp_buffer)
    (hstream : stream T d' = stream T d) : Reads T synced c d' := by
  have hold : ∀ {k format size bytes history}, Holding T k format size bytes history d →
      Holding T k format size bytes history d' := fun ⟨h1, h2, h3, h4, h5⟩ =>
    ⟨hpart.trans h1, fun hk => ⟨hformat.trans (h2 hk).1, hsize.trans (h2 hk).2⟩, htx ▸ h3, hdc ▸ h4,
      hstream.trans h5⟩
  cases synced with
  | false => exact hold h
  | true => cases c <;> exact hold h

variable (heap sequence) in
/-- After the sequence check the decoder is where it was, or it holds nothing. -/
theorem arrived_follows {synced : Bool} (h : Reads T synced c d)
    (hfs : d.tx_buffer_pool.pool.map PacketBuffer.data = fs) :
    Reads T (synced && d.goesOn sequence) c (d.arrived (T.decoder heap) sequence) ∧
      Delivered T sequence fs (d.arrived (T.decoder heap) sequence) := by
  obtain ⟨⟨tx, htx⟩, hdc⟩ := h.buffers
  unfold arrived
  cases hgo : d.goesOn sequence with
  | true =>
    rw [Bool.and_true, if_pos rfl]
    exact ⟨h.congr rfl rfl rfl rfl rfl rfl, rfl, rfl, hfs⟩
  | false =>
    have hblank : Blank T (d.cleared.flushed (T.decoder heap)) :=
      blank_of_cleared (htx ▸ rfl) hdc
    have hreads : Reads T false c (d.cleared.flushed (T.decoder heap)) := hblank
    rw [Bool.and_false]
    exact ⟨hreads.congr rfl rfl rfl rfl rfl rfl, rfl, rfl, hfs⟩

/-- `finish` leaves the decoder where the next datagram starts. -/
theorem finish_follows {synced : Bool} (h : Reads T synced c d) (hd : Delivered T sequence fs d)
    (hflag : Flagged T flag c) :
    Call.Meets (· = d) (finish (T.decoder heap) packetBuffer flag)
      (fun _ d' => Reads T synced (c.cut T) d' ∧ Delivered T sequence fs d')
      (fun x _ => x = .blocked) := by
  refine .returns (finish_run flag) ?_
  cases flag with
  | false =>
    refine ⟨?_, hd.1, hd.2, hd.3⟩
    have hcut : Reads T synced (c.cut T) d := by
      cases synced with
      | false => exact h
      | true =>
        cases c with
        | between n history =>
          obtain rfl : history = T.lib.reset := hflag rfl
          exact h
        | full => exact h
        | inside => exact h
    exact hcut.congr rfl rfl rfl rfl rfl rfl
  | true =>
    refine ⟨?_, hd.1, hd.2, hd.3⟩
    have hblank : ∀ {history}, Holding T 0 NONE 0 [] history d → Blank T (flushed (T.decoder heap)
        { d with inflight_buffers := d.inflight_buffers ++ [packetBuffer] }) :=
      fun ⟨h1, h2, h3, h4, _⟩ => ⟨h1, h2, h3, h4, stream_reset heap _⟩
    cases synced with
    | false => exact hblank h
    | true =>
      cases c with
      | between => exact hblank h
      | full => exact absurd hflag nofun
      | inside => exact absurd hflag id

variable (heap) in
/-- **The records of a datagram**, for a decoder that is where the datagram starts or holds nothing. -/
theorem optionLoop_datagram {synced : Bool} {D : Datagram H} (hlib : LosslessLib T)
    (hcut : c.cut T = c) (hpath : StepPath (Follows T) c D.records c') (hne : D.records ≠ [])
    (hdata : packetBuffer.data = pre ++ D.records.flatMap Record.bytes)
    (hfuel : D.records.length ≤ fuel) (h : Reads T synced c d) (hd : Delivered T sequence fs d) :
    Call.Meets (· = d) (optionLoop (T.decoder heap) packetBuffer fuel pre.length true)
      (fun p d' => ∃ flag, p = some flag ∧ Flagged T flag c' ∧ Reads T (D.syncs c synced) c' d' ∧
        Delivered T sequence (fs ++ (D.received c synced).map EncodedFrame.frame) d')
      (fun x _ => x = .blocked) := by
  have hat : At T c d → Call.Meets (· = d)
      (optionLoop (T.decoder heap) packetBuffer fuel pre.length true)
      (fun p d' => ∃ flag, p = some flag ∧ Flagged T flag c' ∧ Reads T true c' d' ∧
        Delivered T sequence (fs ++ (finished D.records).map EncodedFrame.frame) d')
      (fun x _ => x = .blocked) := fun h =>
    optionLoop_follows heap true fuel hlib hpath h hd hdata hfuel fun h0 => absurd h0 hne
  cases c with
  | between n history =>
    -- a decoder that holds nothing is where such a datagram starts
    obtain rfl : T.lib.reset = history := (Cursor.between.inj hcut).2
    cases synced <;> exact hat h
  | full => exact absurd hcut nofun
  | inside f k off =>
    cases synced with
    | true => exact hat h
    | false =>
      obtain ⟨r, rs, hrs⟩ := List.exists_cons_of_ne_nil hne
      rw [hrs] at hpath hdata hfuel
      simp only [Datagram.syncs, Datagram.received, hrs, List.head?_cons, Option.any_some,
        List.tail_cons]
      exact optionLoop_blank hlib hpath h hd hdata hfuel

/-- **One datagram of the stream**, for a decoder that after the sequence check is where it starts or
holds nothing. -/
theorem decode_datagram {synced : Bool} {D : Datagram H} (hlib : LosslessLib T) (hfuel : T.B ≤ fuel)
    (hemits : Emits T c D c') (hcut : c.cut T = c) (hdata : packetBuffer.data = D.bytes T.host)
    (htx : ∃ tx, d.tx_buffer = some tx)
    (h : Reads T synced c (d.arrived (T.decoder heap) D.sequence) ∧
      Delivered T D.sequence fs (d.arrived (T.decoder heap) D.sequence)) :
    Call.Meets (· = d) (decode (T.decoder heap) fuel packetBuffer)
      (fun _ d' => Reads T (D.syncs c synced) c' d' ∧
        Delivered T D.sequence (fs ++ (D.received c synced).map EncodedFrame.frame) d')
      (fun x _ => x = .blocked) := by
  obtain ⟨c1, hpath, rfl, -⟩ := hemits.path
  have hne := hemits.nonempty
  have hrecords : D.records.length ≤ fuel := by
    have h1 := hemits.size_le
    have h2 := T.size_bounds
    have h3 := length_le_sizeOfRecords D.records
    have h8 : PacketHeaderOption.size = 8 := rfl
    rw [Datagram.size] at h1
    rw [h8] at h3
    omega
  refine (decodeHeader_follows hpath hne hdata htx).bind fun p => ?_
  rintro d1 ⟨rfl, rfl⟩
  have hloop := optionLoop_datagram heap hlib hcut hpath hne hdata hrecords h.1 h.2
  rw [PacketHeader.bytes_length] at hloop
  refine (hloop.bind (R := fun _ d' => Reads T (D.syncs c synced) (c1.cut T) d' ∧
      Delivered T D.sequence (fs ++ (D.received c synced).map EncodedFrame.frame) d')
      fun p => ?_) _ rfl
  rintro d2 ⟨flag, rfl, hflag, h2, hd2⟩
  exact finish_follows h2 hd2 hflag d2 rfl

end PacketDecoder
end SuperEthd
