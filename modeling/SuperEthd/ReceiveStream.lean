import SuperEthd.EncoderThread
import SuperEthd.ReceiveHistory
import SuperEthd.RoundTrip

/-! # A stream through the receiving half

The threads of `ReceiveSide` take turns in the middle of a datagram, and all decoders push to one pool.
What a decoder makes of a stream is followed here option by option: between any two of its turns it
holds what the records that it took make up, and the records that are left give the frames that the
receiver of `Receiver` has more behind the datagram.

A history that is the decoder's own is what makes a compressed frame come out as it was.  LZ4's is not,
so what reaches the TAP writer is stated for runs in which LZ4 never looks back (`Lz4Once`), and that no
call of it did is part of the statement (`ReceiveSide.Delivers.safe`). -/
namespace SuperEthd
open PacketHeaderOptionType PacketHeaderOptionFormatType

variable {H : Type} {T : Tunnel H} {heap : Nat → UInt8}

namespace PacketDecoder
variable {d d' : PacketDecoder H T.B} {packetBuffer : PacketBuffer T.B} {sequence : UInt32}
  {fs : List (List UInt8)} {r : Record H} {rs : List (Record H)} {pre : List UInt8} {flag : Bool}
  {c c' : Cursor H} {D : Datagram H} {ds : List (Datagram H)} {place : Nat → Cursor H × UInt32}
  {s0 : UInt32} {s s' : Receiver H} {todo : List (EncodedFrame H)} {synced : Bool}

/-! ## A decoder and its pools -/

/-- The decoder, were these the frames in its TX pool. -/
def apart (d : PacketDecoder H T.B) (frames : List (PacketBuffer T.B)) : PacketDecoder H T.B :=
  { d with tx_buffer_pool := ⟨frames⟩ }

/-- The two decoders differ in their pools. -/
structure SameDecoder (d d' : PacketDecoder H T.B) : Prop where
  first_packet : d'.first_packet = d.first_packet
  last_sequence : d'.last_sequence = d.last_sequence
  last_part : d'.last_part = d.last_part
  last_format : d'.last_format = d.last_format
  last_orig_packet_size : d'.last_orig_packet_size = d.last_orig_packet_size
  tx_buffer : d'.tx_buffer = d.tx_buffer
  dcomp_buffer : d'.dcomp_buffer = d.dcomp_buffer
  stream : stream T d' = stream T d

theorem Reads.same (h : Reads T synced c d) (hsame : SameDecoder d d') : Reads T synced c d' :=
  h.congr hsame.last_part hsame.last_format hsame.last_orig_packet_size hsame.tx_buffer
    hsame.dcomp_buffer hsame.stream

variable (heap) in
/-- The sequence check leaves the pools alone, but for the inflight buffers that it gives back. -/
theorem SameDecoder.arrived (h : SameDecoder d d') (sequence : UInt32) :
    SameDecoder (d.arrived (T.decoder heap) sequence) (d'.arrived (T.decoder heap) sequence) := by
  have hgo : d'.goesOn sequence = d.goesOn sequence := by
    rw [goesOn, goesOn, h.first_packet, h.last_sequence]
  unfold PacketDecoder.arrived
  rw [hgo]
  cases d.goesOn sequence with
  | true => exact ⟨rfl, rfl, h.last_part, h.last_format, h.last_orig_packet_size, h.tx_buffer,
      h.dcomp_buffer, h.stream⟩
  | false =>
    refine ⟨rfl, rfl, rfl, rfl, rfl, congrArg (Option.map PacketBuffer.clear) h.tx_buffer,
      h.dcomp_buffer, ?_⟩
    have hreset : ∀ d : PacketDecoder H T.B, PacketDecoder.stream T (d.cleared.flushed (T.decoder heap)) = T.lib.reset :=
      fun d => stream_reset heap _
    exact (hreset d').trans (hreset d).symm

variable (heap) in
theorem arrived_tx_buffer_pool (d : PacketDecoder H T.B) (sequence : UInt32) :
    (d.arrived (T.decoder heap) sequence).tx_buffer_pool = d.tx_buffer_pool := by
  unfold arrived
  split <;> rfl

/-! ## One option -/

/-- **What is to come** of a datagram: the frames that the records `rs` will deliver, and whether the
decoder is synced behind them. -/
inductive Awaits (T : Tunnel H) (d : PacketDecoder H T.B) :
    Cursor H → List (Record H) → List (EncodedFrame H) → Bool → Prop
  | synced {c : Cursor H} {rs : List (Record H)} : At T c d → Awaits T d c rs (finished rs) true
  /-- it holds nothing of the frame that the first record goes on with -/
  | missing {f : EncodedFrame H} {k off : Nat} {r : Record H} {rs : List (Record H)} : Blank T d →
      Awaits T d (.inside f k off) (r :: rs) (finished rs) r.finishes
  /-- it skipped that record, and the frame goes on in the next datagram -/
  | missed {f : EncodedFrame H} {k off : Nat} : Blank T d → Awaits T d (.full f k off) [] [] false

/-- Where the datagram starts. -/
theorem Awaits.of_reads (hcut : c.cut T = c) (hne : D.records ≠ []) (h : Reads T synced c d) :
    Awaits T d c D.records (D.received c synced) (D.syncs c synced) := by
  cases c with
  | between n history =>
    obtain rfl : T.lib.reset = history := (Cursor.between.inj hcut).2
    cases synced <;> exact .synced h
  | full => exact absurd hcut nofun
  | inside f k off =>
    cases synced with
    | true => exact .synced h
    | false =>
      obtain ⟨r, rs, hrs⟩ := List.exists_cons_of_ne_nil hne
      simp only [Datagram.syncs, Datagram.received, hrs, List.head?_cons, Option.any_some, List.tail_cons]
      exact .missing h

/-- Behind its last record. -/
theorem Awaits.reads (h : Awaits T d c [] todo synced) : todo = [] ∧ Reads T synced c d := by
  cases h with
  | synced h => exact ⟨rfl, h⟩
  | missed h => exact ⟨rfl, h⟩

/-- The frame that a record ends has been pushed; the cursor is behind the record. -/
structure Handed (T : Tunnel H) (assembled : Bool) (c : Cursor H) (sequence : UInt32) (fs : List (List UInt8))
    (d : PacketDecoder H T.B) : Prop extends Delivered T sequence fs d where
  dcomp_buffer : ∃ dc, d.dcomp_buffer = some dc
  flag : Flagged T (!assembled) c
  refilled : ∀ d', Holding T 0 NONE 0 [] (if assembled then T.lib.reset else stream T d) d' → At T c d'

/-- **A record that the decoder can use.** -/
theorem takeOption_follows {E : Stop → PacketDecoder H T.B → Prop} (hlib : LosslessLib T)
    (hr : Follows T c r c') (h : At T c d) (hd : Delivered T sequence fs d)
    (hs : SuperEthd.Stands packetBuffer pre r) :
    Call.Meets (· = d) (takeOption (T.decoder heap) packetBuffer pre.length flag)
      (fun p d' => (∃ assembled, p = .delivered assembled (pre.length + r.size) ∧
          Handed T assembled c' sequence (fs ++ (finished [r]).map EncodedFrame.frame) d') ∨
        p = .onto (pre.length + r.size) false ∧ finished [r] = [] ∧ Flagged T false c' ∧ At T c' d' ∧
          Delivered T sequence fs d') E := by
  cases hr with
  | @whole f hf =>
    rw [finished_cons_of_finishes _ (Record.finishes_whole f)]
    refine (takeOption_whole hf hlib h hd hs).mono (fun _ h => h) ?_ fun _ _ h => h
    rintro p d1 ⟨rfl, h1⟩
    refine Or.inl ⟨false, rfl, h1.toDelivered, h1.dcomp_buffer, Bool.noConfusion, fun d' h' => ?_⟩
    rw [← h1.stream]
    exact h'
  | @first f len fits hf h0 hlt =>
    have hfin : Record.finishes (Record.mk f 1 0 len fits) = false := by
      simp [Record.finishes]
      omega
    have hstart : Holding T 0 f.format f.frame.length (f.bytes.take 0) f.before d :=
      ⟨h.last_part, fun h0 => absurd h0 (Nat.lt_irrefl 0), h.tx_buffer, h.dcomp_buffer, h.stream⟩
    refine (takeOption_part (r := ⟨f, 1, 0, len, fits⟩) hf hlib rfl (by omega) hstart hd hs).mono
      (fun _ h => h) ?_ fun _ _ h => h
    rintro p d1 (⟨hfin', -⟩ | ⟨-, rfl, hd1, h1⟩)
    · exact Bool.noConfusion (hfin.symm.trans hfin')
    · refine Or.inr ⟨rfl, finished_cons_of_not _ hfin, rfl, ?_, hd1⟩
      simpa only [At, Nat.zero_add] using h1
  | @next f k off len fits hf hk hk' h0 hlt =>
    have hfin : Record.finishes (Record.mk f (k + 1) off len fits) = false := by
      simp [Record.finishes]
      omega
    refine (takeOption_part (r := ⟨f, k + 1, off, len, fits⟩) hf hlib rfl hk' h hd hs).mono
      (fun _ h => h) ?_ fun _ _ h => h
    rintro p d1 (⟨hfin', -⟩ | ⟨-, rfl, hd1, h1⟩)
    · exact Bool.noConfusion (hfin.symm.trans hfin')
    · exact Or.inr ⟨rfl, finished_cons_of_not _ hfin, rfl, h1, hd1⟩
  | @last f k off len fits hf hk hk' h0 hend =>
    have hfin : Record.finishes (Record.mk f (k + 1) off len fits) = true := by
      simp [Record.finishes]
      omega
    rw [finished_cons_of_finishes _ hfin]
    refine (takeOption_part (r := ⟨f, k + 1, off, len, fits⟩) hf hlib rfl hk' h hd hs).mono
      (fun _ h => h) ?_ fun _ _ h => h
    rintro p d1 (⟨-, rfl, h1⟩ | ⟨hfin', -⟩)
    · exact Or.inl ⟨true, rfl, h1.toDelivered, h1.dcomp_buffer, fun _ => rfl, fun d' h' => h'⟩
    · exact Bool.noConfusion (hfin.symm.trans hfin')

/-! ## In the middle of a datagram -/

/-- `pre` of the datagram is done with, and the records `rs` stand from `c` on. -/
structure Before (T : Tunnel H) (packetBuffer : PacketBuffer T.B) (next : Cursor H) (pre : List UInt8)
    (c : Cursor H) (rs : List (Record H)) : Prop where
  data : packetBuffer.data = pre ++ rs.flatMap Record.bytes
  path : ∃ c', StepPath (Follows T) c rs c' ∧ c'.cut T = next

/-- **Before an option** of the datagram behind which the receiver is `s`; `fs` are the frames that
the decoder delivered. -/
structure AtOption (T : Tunnel H) (s : Receiver H) (D : Datagram H) (next : Cursor H)
    (fs : List (List UInt8)) (packetBuffer : PacketBuffer T.B) (pos : Nat) (flag : Bool)
    (d : PacketDecoder H T.B) : Prop where
  first_packet : d.first_packet = false
  last_sequence : d.last_sequence = D.sequence
  rest : ∃ pre c rs todo, pos = pre.length ∧ Before T packetBuffer next pre c rs ∧
    (rs = [] → Flagged T flag c) ∧ Awaits T d c rs todo s.synced ∧
    fs ++ todo.map EncodedFrame.frame = s.frames.map EncodedFrame.frame

/-- **Behind the push of a frame** of that datagram. -/
structure AtRefill (T : Tunnel H) (s : Receiver H) (D : Datagram H) (next : Cursor H)
    (fs : List (List UInt8)) (packetBuffer : PacketBuffer T.B) (assembled : Bool) (pos : Nat)
    (d : PacketDecoder H T.B) : Prop where
  synced : s.synced = true
  rest : ∃ pre c rs, pos = pre.length ∧ Before T packetBuffer next pre c rs ∧
    Handed T assembled c D.sequence (d.tx_buffer_pool.pool.map PacketBuffer.data) d ∧
    fs ++ (finished rs).map EncodedFrame.frame = s.frames.map EncodedFrame.frame

/-- A part of the datagram is in front of a record. -/
theorem Before.stands {next : Cursor H} (h : Before T packetBuffer next pre c (r :: rs)) :
    SuperEthd.Stands packetBuffer pre r :=
  .of_cons rs h.data

theorem Before.tail {next : Cursor H} (h : Before T packetBuffer next pre c (r :: rs)) :
    ∃ c', Follows T c r c' ∧ pre.length + r.size = (pre ++ r.bytes).length ∧
      Before T packetBuffer next (pre ++ r.bytes) c' rs := by
  obtain ⟨c2, hpath, hcut⟩ := h.path
  obtain ⟨c1, hr, hpath⟩ := StepPath.cons_iff.mp hpath
  refine ⟨c1, hr, by rw [List.length_append, r.bytes_length], ⟨?_, c2, hpath, hcut⟩⟩
  rw [h.data, List.flatMap_cons, List.append_assoc]

/-- Whether there is a record is what the loop over the payloads tests. -/
theorem Before.eq_nil_iff {next : Cursor H} (h : Before T packetBuffer next pre c rs) :
    rs = [] ↔ ¬pre.length < packetBuffer.dataSize :=
  records_eq_nil_iff h.data

/-- **An option** of a datagram of the stream: what it adds to the frames is in the TX pool. -/
theorem AtOption.takeOption {next : Cursor H} {pos : Nat} {p : Progress}
    (hlib : LosslessLib T) (h : AtOption T s D next fs packetBuffer pos flag d)
    (hpos : pos < packetBuffer.dataSize)
    (hrun : (takeOption (T.decoder heap) packetBuffer pos flag).run d = .ok p d') :
    ∃ new, d'.tx_buffer_pool.pool.map PacketBuffer.data =
        d.tx_buffer_pool.pool.map PacketBuffer.data ++ new ∧
      match p with
      | .refused => False
      | .onto pos' flag' => AtOption T s D next (fs ++ new) packetBuffer pos' flag' d'
      | .delivered assembled pos' => AtRefill T s D next (fs ++ new) packetBuffer assembled pos' d' := by
  obtain ⟨hfirst, hlast, pre, c, rs, todo, rfl, hbefore, -, hawaits, hframes⟩ := h
  have hd : Delivered T D.sequence (d.tx_buffer_pool.pool.map PacketBuffer.data) d :=
    ⟨hfirst, hlast, rfl⟩
  cases rs with
  | nil => exact absurd hpos (hbefore.eq_nil_iff.mp rfl)
  | cons r rs =>
    obtain ⟨c', hr, hlen, hbefore'⟩ := hbefore.tail
    generalize hsynced : s.synced = synced at hawaits
    cases hawaits with
    | synced hat =>
      rw [show finished (r :: rs) = finished [r] ++ finished rs from finished_append [r] rs,
        List.map_append] at hframes
      rcases (takeOption_follows (E := fun _ _ => True) hlib hr hat hd hbefore.stands).ok rfl hrun with
        ⟨assembled, rfl, hhanded⟩ | ⟨rfl, hnone, hflag, hat', hd'⟩
      · refine ⟨_, hhanded.frames, hsynced, _, _, _, hlen, hbefore', hhanded.frames ▸ hhanded, ?_⟩
        rw [List.append_assoc]
        exact hframes
      · rw [hnone, List.map_nil, List.nil_append] at hframes
        refine ⟨[], hd'.frames.trans (List.append_nil _).symm, hd'.first_packet, hd'.last_sequence, _, _, _,
          finished rs, hlen, hbefore', fun _ => hflag, ?_, ?_⟩
        · rw [hsynced]
          exact .synced hat'
        · rw [List.append_nil]
          exact hframes
    | @missing f k off _ _ hblank =>
      have hskip : ∀ {k : Nat}, r.of.Valid T → r.part = k + 1 → 0 < k → k < 255 →
          p = .onto (pre.length + r.size) false ∧
            Delivered T D.sequence (d.tx_buffer_pool.pool.map PacketBuffer.data) d' ∧ Blank T d' :=
        fun hf hpart hk hk' => (takeOption_skip (E := fun _ _ => True) hf hpart hk hk' hblank hd
          hbefore.stands).ok rfl hrun
      cases hr with
      | @next _ _ _ len fits hf hk hk' h0 hlt =>
        obtain ⟨rfl, hd', hblank'⟩ := hskip hf rfl hk hk'
        obtain ⟨c2, hpath, -⟩ := hbefore'.path
        obtain ⟨rfl, -⟩ := path_full hpath
        have hfin : Record.finishes (Record.mk f (k + 1) off len fits) = false := by
          simp [Record.finishes]
          omega
        refine ⟨[], hd'.frames.trans (List.append_nil _).symm, hd'.first_packet, hd'.last_sequence, _, _, _,
          [], hlen, hbefore', fun _ => rfl, ?_, ?_⟩
        · rw [hsynced, hfin]
          exact .missed hblank'
        · rw [List.append_nil]
          exact hframes
      | @last _ _ _ len fits hf hk hk' h0 hend =>
        obtain ⟨rfl, hd', hblank'⟩ := hskip hf rfl hk hk'
        have hfin : Record.finishes (Record.mk f (k + 1) off len fits) = true := by
          simp [Record.finishes]
          omega
        refine ⟨[], hd'.frames.trans (List.append_nil _).symm, hd'.first_packet, hd'.last_sequence, _, _, _,
          finished rs, hlen, hbefore', fun _ _ => rfl, ?_, ?_⟩
        · rw [hsynced, hfin]
          exact .synced hblank'
        · rw [List.append_nil]
          exact hframes

/-- **A new `tx_buffer`**, which the decoder may have had to wait for. -/
theorem AtRefill.refill {next : Cursor H} {pos : Nat} {assembled : Bool}
    (h : AtRefill T s D next fs packetBuffer assembled pos d)
    (hrun : (refill (T.decoder heap) assembled).run d = .ok () d') :
    d'.tx_buffer_pool.pool.map PacketBuffer.data = d.tx_buffer_pool.pool.map PacketBuffer.data ∧
      AtOption T s D next fs packetBuffer pos (!assembled) d' := by
  obtain ⟨hsynced, pre, c, rs, hpos, hbefore, hhanded, hframes⟩ := h
  have hpushed : Pushed T D.sequence (d.tx_buffer_pool.pool.map PacketBuffer.data) (stream T d) d :=
    ⟨hhanded.toDelivered, hhanded.dcomp_buffer, rfl⟩
  obtain ⟨hd', hholding⟩ := (refill_follows assembled).ok hpushed hrun
  refine ⟨hd'.frames, hd'.first_packet, hd'.last_sequence, pre, c, rs, finished rs, hpos, hbefore,
    fun _ => hhanded.flag, ?_, hframes⟩
  rw [hsynced]
  exact .synced (hhanded.refilled d' hholding)

/-- **The end of the datagram.** -/
theorem AtOption.finish {next : Cursor H} {pos : Nat} (h : AtOption T s D next fs packetBuffer pos flag d)
    (hpos : ¬pos < packetBuffer.dataSize)
    (hrun : (finish (T.decoder heap) packetBuffer flag).run d = .ok () d') :
    Reads T s.synced next d' ∧
      Delivered T D.sequence (d.tx_buffer_pool.pool.map PacketBuffer.data) d' ∧
      fs = s.frames.map EncodedFrame.frame := by
  obtain ⟨hfirst, hlast, pre, c, rs, todo, rfl, hbefore, hflag, hawaits, hframes⟩ := h
  obtain rfl := hbefore.eq_nil_iff.mpr hpos
  obtain ⟨c', hpath, rfl⟩ := hbefore.path
  obtain rfl := StepPath.nil_iff.mp hpath
  obtain ⟨rfl, hreads⟩ := hawaits.reads
  obtain ⟨hreads', hd'⟩ := (finish_follows hreads ⟨hfirst, hlast, rfl⟩ (hflag rfl)).ok rfl hrun
  refine ⟨hreads', hd', ?_⟩
  rw [← hframes, List.map_nil, List.append_nil]

variable (heap) in
/-- After the sequence check the decoder is where the datagram starts. -/
theorem Mirrors.reads {j : Nat} {frames : List (PacketBuffer T.B)}
    (hm : Mirrors ds place s (d.apart frames)) (h : Places T s0 ds place) (hD : ds[j]? = some D)
    (hon : Honest s j D.sequence (d.apart frames)) :
    (∃ tx, d.tx_buffer = some tx) ∧ Reads T (s.goesOn j) (place j).1 (d.arrived (T.decoder heap) D.sequence) ∧
      Delivered T D.sequence (d.tx_buffer_pool.pool.map PacketBuffer.data)
        (d.arrived (T.decoder heap) D.sequence) := by
  obtain ⟨htx, hreads, hd⟩ := hm.arrived heap h hD hon
  have hsame : SameDecoder (d.apart frames) d := ⟨rfl, rfl, rfl, rfl, rfl, rfl, rfl, rfl⟩
  have hsame' := hsame.arrived heap D.sequence
  refine ⟨htx, hreads.same hsame', hsame'.first_packet.trans hd.first_packet,
    hsame'.last_sequence.trans hd.last_sequence, ?_⟩
  rw [arrived_tx_buffer_pool]

/-- **The header** of a datagram that the sequence check sees as it is. -/
theorem Mirrors.opened {j : Nat} {frames : List (PacketBuffer T.B)} {p : Option Nat}
    (hm : Mirrors ds place s (d.apart frames)) (h : Places T s0 ds place) (hD : ds[j]? = some D)
    (hdata : packetBuffer.data = D.bytes T.host) (hon : Honest s j D.sequence (d.apart frames))
    (hrun : (decodeHeader (T.decoder heap) packetBuffer).run d = .ok p d') :
    p = some PacketHeader.size ∧ d'.tx_buffer_pool = d.tx_buffer_pool ∧
      AtOption T (s.receive j (place j).1 D) D (place (j + 1)).1 (frames.map PacketBuffer.data)
        packetBuffer PacketHeader.size true d' := by
  obtain ⟨htx, hreads, hd⟩ := hm.reads heap h hD hon
  have hemits := h.emits hD
  obtain ⟨c', hpath, hcut, -⟩ := hemits.path
  obtain ⟨rfl, rfl⟩ := (decodeHeader_follows (d := d) (E := fun _ _ => True) hpath hemits.nonempty hdata
    htx).ok rfl hrun
  have hj := (List.getElem?_eq_some_iff.mp hD).1.le
  refine ⟨rfl, arrived_tx_buffer_pool heap d D.sequence, hd.first_packet, hd.last_sequence,
    (PacketEncoder.header D.sequence 1).bytes T.host, _, _, _,
    (PacketHeader.bytes_length _ _).symm, ⟨hdata, c', hpath, hcut.symm⟩,
    fun hnil => absurd hnil hemits.nonempty, Awaits.of_reads (h.cut hj) hemits.nonempty hreads, ?_⟩
  rw [Receiver.receive, List.map_append]
  exact congrArg (· ++ _) hm.frames

/-! ## A decoder among threads -/

theorem Blank.same (h : Blank T d) (hsame : SameDecoder d d') : Blank T d' := by
  have hreads : Reads T false (.between 0 T.lib.reset) d := h
  exact hreads.same hsame

theorem Mirrors.same (h : Mirrors ds place s d) (hsame : SameDecoder d d')
    (hframes : d'.tx_buffer_pool = d.tx_buffer_pool) : Mirrors ds place s d' := by
  refine ⟨hframes ▸ h.frames, fun hnone => Blank.same (h.new hnone) hsame, fun j hj => ?_⟩
  obtain ⟨l, D, hl, hD, hfirst, hlast, hreads⟩ := h.last j hj
  exact ⟨l, D, hl, hD, hsame.first_packet.trans hfirst, hsame.last_sequence.trans hlast, hreads.same hsame⟩

theorem Awaits.same (h : Awaits T d c rs todo synced) (hsame : SameDecoder d d') :
    Awaits T d' c rs todo synced := by
  cases h with
  | @synced c rs h =>
    have hreads : Reads T true c d := h
    exact .synced (hreads.same hsame)
  | missing h => exact .missing (Blank.same h hsame)
  | missed h => exact .missed (Blank.same h hsame)

end PacketDecoder

open PacketDecoder

/-- **The decoder is in the stream**: it was called with the datagrams numbered `js`, in the last of which
it may be, and pushed `frames`. -/
def Phase.InStream (T : Tunnel H) (ds : List (Datagram H)) (place : Nat → Cursor H × UInt32) (js : List Nat)
    (frames : List (PacketBuffer T.B)) (d : PacketDecoder H T.B) : Phase T.B → Prop
  | .idle => Mirrors ds place (Receiver.run ds place js) (d.apart frames)
  | .options packetBuffer pos flag => ∃ js0 j D, js = js0 ++ [j] ∧ ds[j]? = some D ∧
      AtOption T (Receiver.run ds place js) D (place (j + 1)).1 (frames.map PacketBuffer.data)
        packetBuffer pos flag d
  | .refill packetBuffer assembled pos => ∃ js0 j D, js = js0 ++ [j] ∧ ds[j]? = some D ∧
      AtRefill T (Receiver.run ds place js) D (place (j + 1)).1 (frames.map PacketBuffer.data)
        packetBuffer assembled pos d

namespace Phase.InStream
variable {ds : List (Datagram H)} {place : Nat → Cursor H × UInt32} {s0 : UInt32} {js : List Nat}
  {frames new buffers : List (PacketBuffer T.B)} {d d' : PacketDecoder H T.B} {phase : Phase T.B}
  {packetBuffer : PacketBuffer T.B} {t : Threads H T.B} {j : Nat} {D : Datagram H}

/-- The other threads change the pools. -/
theorem pools (h : phase.InStream T ds place js frames d)
    (tx_buffer_pool available_buffer_pool : BufferPool (PacketBuffer T.B) T.B) :
    phase.InStream T ds place js frames
      { d with tx_buffer_pool := tx_buffer_pool, available_buffer_pool := available_buffer_pool } := by
  cases phase with
  | idle => exact Mirrors.same h ⟨rfl, rfl, rfl, rfl, rfl, rfl, rfl, rfl⟩ rfl
  | options packetBuffer pos flag =>
    obtain ⟨js0, j, D, hjs, hD, hfirst, hlast, pre, c, rs, todo, hpos, hbefore, hflag, hawaits, hframes⟩ := h
    exact ⟨js0, j, D, hjs, hD, hfirst, hlast, pre, c, rs, todo, hpos, hbefore, hflag,
      hawaits.same ⟨rfl, rfl, rfl, rfl, rfl, rfl, rfl, rfl⟩, hframes⟩
  | refill packetBuffer assembled pos =>
    obtain ⟨js0, j, D, hjs, hD, hsynced, pre, c, rs, hpos, hbefore, hhanded, hframes⟩ := h
    exact ⟨js0, j, D, hjs, hD, hsynced, pre, c, rs, hpos, hbefore,
      ⟨⟨hhanded.first_packet, hhanded.last_sequence, rfl⟩, hhanded.dcomp_buffer, hhanded.flag,
        hhanded.refilled⟩, hframes⟩

/-- What was pushed is behind what was in the pool. -/
theorem map_new {new' : List (List UInt8)}
    (hpushed : d'.tx_buffer_pool.pool = d.tx_buffer_pool.pool ++ new)
    (hdata : d'.tx_buffer_pool.pool.map PacketBuffer.data =
      d.tx_buffer_pool.pool.map PacketBuffer.data ++ new') : new.map PacketBuffer.data = new' := by
  rw [hpushed, List.map_append] at hdata
  exact List.append_cancel_left hdata

/-- **A datagram of the stream** is handed to `decode`. -/
theorem arrives (hin : phase.InStream T ds place js frames d) (h : Places T s0 ds place)
    (hstep : Threads.Step (T.decoder heap) ⟨d, phase, buffers⟩ (.arrives packetBuffer) t)
    (hpushed : t.decoder.tx_buffer_pool.pool = d.tx_buffer_pool.pool ++ new) (hD : ds[j]? = some D)
    (hdata : packetBuffer.data = D.bytes T.host)
    (hon : ∀ d : PacketDecoder H T.B, Mirrors ds place (Receiver.run ds place js) d →
      Honest (Receiver.run ds place js) j D.sequence d) :
    t.phase.InStream T ds place (js ++ [j]) (frames ++ new) t.decoder := by
  cases hstep with
  | refused hrun =>
    obtain ⟨hp, -⟩ := Mirrors.opened hin h hD hdata (hon _ hin) hrun
    cases hp
  | opened hrun =>
    obtain ⟨hp, hpool, hat⟩ := Mirrors.opened hin h hD hdata (hon _ hin) hrun
    obtain rfl := Option.some.inj hp
    have hnew : new = [] := List.append_cancel_left
      ((hpushed.symm.trans (congrArg BufferPool.pool hpool)).trans (List.append_nil _).symm)
    refine ⟨js, j, D, rfl, hD, ?_⟩
    rw [hnew, List.append_nil, Receiver.run_concat hD]
    exact hat

/-- **`decode` goes on.** -/
theorem decodes (hin : phase.InStream T ds place js frames d) (hlib : LosslessLib T)
    (hstep : Threads.Step (T.decoder heap) ⟨d, phase, buffers⟩ .decodes t)
    (hpushed : t.decoder.tx_buffer_pool.pool = d.tx_buffer_pool.pool ++ new) :
    t.phase.InStream T ds place js (frames ++ new) t.decoder := by
  cases hstep with
  | optionRefused hpos hrun =>
    obtain ⟨js0, j, D, hjs, hD, hat⟩ := hin
    obtain ⟨_, -, hfalse⟩ := hat.takeOption hlib hpos hrun
    exact hfalse.elim
  | option hpos hrun =>
    obtain ⟨js0, j, D, hjs, hD, hat⟩ := hin
    obtain ⟨new', hdata, hat'⟩ := hat.takeOption hlib hpos hrun
    refine ⟨js0, j, D, hjs, hD, ?_⟩
    rw [List.map_append, map_new hpushed hdata]
    exact hat'
  | delivered hpos hrun =>
    obtain ⟨js0, j, D, hjs, hD, hat⟩ := hin
    obtain ⟨new', hdata, hat'⟩ := hat.takeOption hlib hpos hrun
    refine ⟨js0, j, D, hjs, hD, ?_⟩
    rw [List.map_append, map_new hpushed hdata]
    exact hat'
  | refilled hrun =>
    obtain ⟨js0, j, D, hjs, hD, hat⟩ := hin
    obtain ⟨hdata, hat'⟩ := hat.refill hrun
    refine ⟨js0, j, D, hjs, hD, ?_⟩
    rw [List.map_append, map_new hpushed (hdata.trans (List.append_nil _).symm), List.append_nil]
    exact hat'
  | finished hpos hrun =>
    obtain ⟨js0, j, D, rfl, hD, hat⟩ := hin
    obtain ⟨hreads, hd', hframes⟩ := hat.finish hpos hrun
    have hnew := map_new hpushed (hd'.frames.trans (List.append_nil _).symm)
    refine ⟨?_, ?_, ?_⟩
    · show (frames ++ new).map PacketBuffer.data = _
      rw [List.map_append, hnew, List.append_nil, hframes]
    · intro hnone
      rw [Receiver.run_concat hD] at hnone
      cases hnone
    · intro i hi
      rw [Receiver.run_concat hD] at hi
      obtain rfl := Option.some.inj hi
      exact ⟨j, D, rfl, hD, hd'.first_packet, hd'.last_sequence,
        hreads.same ⟨rfl, rfl, rfl, rfl, rfl, rfl, rfl, rfl⟩⟩

end Phase.InStream

/-! ## Where frames come from -/

/-- A frame that an option delivers. -/
theorem PacketDecoder.Outcome.source {B : Nat} {cfg : DecoderConfig H} {d d' : PacketDecoder H B}
    {packetBuffer tx : PacketBuffer B} {option : PacketHeaderOption} {pos : Nat} {flag : Bool} {p : Progress}
    {new : List (PacketBuffer B)} (h : Outcome cfg packetBuffer pos flag option tx d p d')
    (hpushed : d'.tx_buffer_pool.pool = d.tx_buffer_pool.pool ++ new) :
    ∀ b ∈ new, b.source = packetBuffer.source := by
  have hnone : d'.tx_buffer_pool = d.tx_buffer_pool → ∀ b ∈ new, b.source = packetBuffer.source := by
    intro hpool b hb
    rw [hpool] at hpushed
    obtain rfl : new = [] :=
      List.append_cancel_left (hpushed.symm.trans (List.append_nil _).symm)
    exact absurd hb List.not_mem_nil
  cases h with
  | refused htried => exact hnone (htried.tx_buffer_pool.trans (begun_tx_buffer_pool cfg option))
  | ignored => exact hnone rfl
  | skipped => exact hnone rfl
  | kept => exact hnone rfl
  | @delivered d1 frame _ _ htried =>
    have hpool : d1.tx_buffer_pool.pool ++ [{ frame with source := packetBuffer.source }] =
        d.tx_buffer_pool.pool ++ new := hpushed
    rw [htried.tx_buffer_pool, begun_tx_buffer_pool] at hpool
    obtain rfl := List.append_cancel_left hpool
    intro b hb
    rw [List.mem_singleton.mp hb]

namespace Threads
variable {B : Nat} {cfg : DecoderConfig H} {t t' : Threads H B} {event : Event B}
  {new : List (PacketBuffer B)} {P : SockaddrStorage → Prop}

/-- Nothing was pushed. -/
theorem new_eq_nil (hpool : t'.decoder.tx_buffer_pool = t.decoder.tx_buffer_pool)
    (hpushed : t'.decoder.tx_buffer_pool.pool = t.decoder.tx_buffer_pool.pool ++ new) : new = [] := by
  rw [hpool] at hpushed
  exact (List.append_cancel_left (hpushed.symm.trans (List.append_nil _).symm))

/-- **A frame has the source of the datagram it ended in.** -/
theorem sources_step (h : t.phase.Equips t.decoder) (hstep : Step cfg t event t') (own : event ≠ .others)
    (hphase : ∀ b ∈ t.phase.buffers ++ event.datagrams, P b.source)
    (hpushed : t'.decoder.tx_buffer_pool.pool = t.decoder.tx_buffer_pool.pool ++ new) :
    ∀ b ∈ t'.phase.buffers ++ new, P b.source := by
  cases hstep with
  | @refused d d' l r packetBuffer hrun =>
    obtain ⟨tx, htx⟩ := Option.isSome_iff_exists.mp h.1
    obtain rfl := new_eq_nil ((decodeHeader_meets (E := fun _ _ => True) htx).ok rfl hrun).frames hpushed
    exact fun b hb => absurd hb List.not_mem_nil
  | @opened d d' l r packetBuffer pos hrun =>
    obtain ⟨tx, htx⟩ := Option.isSome_iff_exists.mp h.1
    obtain rfl := new_eq_nil ((decodeHeader_meets (E := fun _ _ => True) htx).ok rfl hrun).frames hpushed
    exact hphase
  | @optionRefused d d' packetBuffer pos flag others hpos hrun =>
    obtain ⟨tx, dc, htx, hdc⟩ := Owns.exists_buffers (m := d.held) ⟨rfl, h.1, h.2⟩
    have hsource := ((takeOption_meets htx hdc).ok rfl hrun).source hpushed
    intro b hb
    rw [hsource b hb]
    exact hphase packetBuffer List.mem_cons_self
  | @option d d' packetBuffer pos flag pos' flag' others hpos hrun =>
    obtain ⟨tx, dc, htx, hdc⟩ := Owns.exists_buffers (m := d.held) ⟨rfl, h.1, h.2⟩
    have hsource := ((takeOption_meets htx hdc).ok rfl hrun).source hpushed
    intro b hb
    rcases List.mem_cons.mp hb with rfl | hb
    · exact hphase b List.mem_cons_self
    · rw [hsource b hb]
      exact hphase packetBuffer List.mem_cons_self
  | @delivered d d' packetBuffer pos flag assembled pos' others hpos hrun =>
    obtain ⟨tx, dc, htx, hdc⟩ := Owns.exists_buffers (m := d.held) ⟨rfl, h.1, h.2⟩
    have hsource := ((takeOption_meets htx hdc).ok rfl hrun).source hpushed
    intro b hb
    rcases List.mem_cons.mp hb with rfl | hb
    · exact hphase b List.mem_cons_self
    · rw [hsource b hb]
      exact hphase packetBuffer List.mem_cons_self
  | @refilled d d' packetBuffer assembled pos others hrun =>
    have hpool : d'.tx_buffer_pool = d.tx_buffer_pool := by
      rcases refill_run cfg assembled d with hblocked | ⟨buffer, rest, -, hok⟩
      · cases hblocked.symm.trans hrun
      · obtain rfl := (EStateM.Result.ok.inj (hok.symm.trans hrun)).2
        cases assembled <;> rfl
    obtain rfl := new_eq_nil hpool hpushed
    exact hphase
  | @finished d d' packetBuffer pos flag others hpos hrun =>
    have hpool : d'.tx_buffer_pool = d.tx_buffer_pool := by
      obtain rfl := (EStateM.Result.ok.inj ((finish_run flag).symm.trans hrun)).2
      cases flag <;> rfl
    obtain rfl := new_eq_nil hpool hpushed
    exact fun b hb => absurd hb List.not_mem_nil
  | take => exact absurd rfl own
  | giveBack => exact absurd rfl own
  | pop => exact absurd rfl own
  | overwrite => exact absurd rfl own

end Threads

/-- The frames that the decoder of the node pushed. -/
def framesOf {B : Nat} (n : In6Addr) (events : List (ReceiveEvent B)) : List (PacketBuffer B) :=
  events.flatMap fun event => match event with
    | .decoded m _ frames => if m = n then frames else []
    | _ => []

theorem framesOf_concat {B : Nat} (n : In6Addr) (events : List (ReceiveEvent B)) (event : ReceiveEvent B) :
    framesOf n (events ++ [event]) = framesOf n events ++ framesOf n [event] :=
  List.flatMap_append

theorem framesOf_decoded {B : Nat} (n m : In6Addr) (datagrams frames : List (PacketBuffer B)) :
    framesOf m [.decoded n datagrams frames] = if n = m then frames else [] :=
  List.append_nil _

/-- The frame, or datagram, came from the node. -/
def FromNode {B : Nat} (n : In6Addr) (b : PacketBuffer B) : Prop :=
  get_key_from_sockaddr b.source = some n

instance {B : Nat} (n : In6Addr) : DecidablePred (FromNode (B := B) n) :=
  fun b => inferInstanceAs (Decidable (get_key_from_sockaddr b.source = some n))

/-- What the decoder thread is in the middle of. -/
def DecoderThread.opened {B : Nat} : DecoderThread H B → List (PacketBuffer B)
  | .running _ phase _ => phase.buffers
  | _ => []

/-- Of the frames that were pushed, those from the node are those its decoder pushed. -/
theorem filter_framesPushed {B : Nat} {events : List (ReceiveEvent B)} (n : In6Addr)
    (h : ∀ m, ∀ b ∈ framesOf m events, FromNode m b) :
    ((framesPushed events).filter fun b => FromNode n b) = framesOf n events := by
  induction events with
  | nil => rfl
  | cons event events ih =>
    have hrest : ∀ m, ∀ b ∈ framesOf m events, FromNode m b :=
      fun m b hb => h m b (List.mem_append_right _ hb)
    rw [framesPushed, framesOf, List.flatMap_cons, List.flatMap_cons, List.filter_append]
    congr 1
    · cases event with
      | decoded m datagrams frames =>
        have hframes : ∀ b ∈ frames, FromNode m b := by
          intro b hb
          refine h m b (List.mem_append_left _ ?_)
          show b ∈ if m = m then frames else []
          rwa [if_pos rfl]
        by_cases hmn : m = n
        · subst hmn
          show frames.filter _ = if m = m then frames else []
          rw [if_pos rfl]
          exact List.filter_eq_self.mpr fun b hb => decide_eq_true (hframes b hb)
        · show frames.filter _ = if m = n then frames else []
          rw [if_neg hmn]
          refine List.filter_eq_nil_iff.mpr fun b hb htrue => hmn ?_
          exact Option.some.inj ((hframes b hb).symm.trans (of_decide_eq_true htrue))
      | reader => rfl
      | handled => rfl
      | silent => rfl
    · exact ih hrest

namespace ReceiveSide
variable {B : Nat} {rcfg : ReaderConfig} {cfg : DecoderConfig H} {s s' : ReceiveSide H B}
  {event : ReceiveEvent B} {events : List (ReceiveEvent B)} {n : In6Addr} {available : List Nat}

/-- What a decoder works on came from its node, and so did the frames. -/
structure Sourced (events : List (ReceiveEvent B)) (s : ReceiveSide H B) : Prop where
  opened : ∀ n, ∀ b ∈ (s.decoder n).opened, FromNode n b
  frames : ∀ n, ∀ b ∈ framesOf n events, FromNode n b

/-- A decoder is called with datagrams from its node. -/
theorem Inv.fromNode {datagrams frames : List (PacketBuffer B)}
    (h : Inv rcfg available (events ++ [.decoded n datagrams frames]) s) (hn : n ∈ rcfg.remote_nodes) :
    ∀ b ∈ datagrams, FromNode n b := by
  intro b hb
  have hmem : b.datagram ∈ decodedBy n (events ++ [.decoded n datagrams frames]) := by
    rw [decodedBy_concat, decodedBy_decoded, if_pos rfl]
    exact List.mem_append_right _ (List.mem_map_of_mem hb)
  have hgoes := (List.mem_filter.mp ((h.inOrder.decoded n hn).mem hmem)).2
  exact (of_decide_eq_true hgoes).1

/-- **One step** keeps the sources. -/
theorem Sourced.step (h : Sourced events s) (hinv : Inv rcfg available events s)
    (hstep : Step rcfg cfg s event s') : Sourced (events ++ [event]) s' := by
  have hinv' := hinv.step hstep
  -- most steps push no frame, and leave the decoders where they are
  have hkept : ∀ {s' : ReceiveSide H B}, (∀ m, framesOf m [event] = []) →
      (∀ m, (s'.decoder m).opened = (s.decoder m).opened) → Sourced (events ++ [event]) s' := by
    intro s' hnone hopened
    refine ⟨fun m => hopened m ▸ h.opened m, fun m => ?_⟩
    rw [framesOf_concat, hnone, List.append_nil]
    exact h.frames m
  cases hstep with
  | reader => exact hkept (fun _ => rfl) fun _ => rfl
  | construct node thread =>
    exact hkept (fun _ => rfl) (PointUpdate.apply_congr DecoderThread.opened s.decoder (by rw [thread]; rfl))
  | constructed thread =>
    exact hkept (fun _ => rfl) (PointUpdate.apply_congr DecoderThread.opened s.decoder (by rw [thread]; rfl))
  | wait thread =>
    exact hkept (fun _ => rfl) (PointUpdate.apply_congr DecoderThread.opened s.decoder (by rw [thread]; rfl))
  | @decode n d phase buffers frames event t thread turn own first pushed =>
    have hn : n ∈ rcfg.remote_nodes := hinv.mem_of_decoder (by rw [thread]; intro heq; cases heq)
    have hequips : phase.Equips (s.lend d) := by
      have hequipped := hinv.equipped n
      rw [thread] at hequipped
      cases phase <;> exact hequipped
    have hphase : ∀ b ∈ phase.buffers ++ event.datagrams, FromNode n b := by
      intro b hb
      rcases List.mem_append.mp hb with hb | hb
      · have hopened := h.opened n
        rw [thread] at hopened
        exact hopened b hb
      · exact hinv'.fromNode hn b hb
    have hnew := Threads.sources_step (P := fun source => get_key_from_sockaddr source = some n) hequips turn
      own hphase pushed
    refine ⟨fun m b hb => ?_, fun m b hb => ?_⟩
    · have hb : b ∈ (Function.update s.decoder n (.running t.decoder t.phase t.others) m).opened := hb
      by_cases hm : m = n
      · subst hm
        rw [Function.update_self] at hb
        exact hnew b (List.mem_append_left _ hb)
      · rw [Function.update_of_ne hm] at hb
        exact h.opened m b hb
    · rw [framesOf_concat, framesOf_decoded] at hb
      rcases List.mem_append.mp hb with hb | hb
      · exact h.frames m b hb
      · by_cases hm : n = m
        · subst hm
          rw [if_pos rfl] at hb
          exact hnew b (List.mem_append_right _ hb)
        · rw [if_neg hm] at hb
          exact absurd hb List.not_mem_nil
  | tapWait => exact hkept (fun _ => rfl) fun _ => rfl
  | tapHandle => exact hkept (fun _ => rfl) fun _ => rfl
  | tapGiveBack => exact hkept (fun _ => rfl) fun _ => rfl
  | learning => exact hkept (fun _ => rfl) fun _ => rfl

end ReceiveSide

/-! ## Runs -/

namespace Receiver

/-- More datagrams only add frames. -/
theorem frames_run_append (ds : List (Datagram H)) (place : Nat → Cursor H × UInt32) (js js' : List Nat) :
    (run ds place js).frames <+: (run ds place (js ++ js')).frames := by
  induction js' using List.reverseRecOn with
  | nil =>
    rw [List.append_nil]
  | append_singleton js' j ih =>
    refine ih.trans ?_
    rw [← List.append_assoc]
    cases hD : ds[j]? with
    | some D =>
      rw [run_concat hD]
      exact List.prefix_append _ _
    | none =>
      have hnone : run ds place (js ++ js' ++ [j]) = run ds place (js ++ js') := by
        rw [run, List.foldl_append, List.foldl_cons, List.foldl_nil, hD]
        rfl
      rw [hnone]

end Receiver

/-- The decoder thread is in the stream. -/
def DecoderThread.InStream (T : Tunnel H) (ds : List (Datagram H)) (place : Nat → Cursor H × UInt32)
    (js : List Nat) (frames : List (PacketBuffer T.B)) : DecoderThread H T.B → Prop
  | .starting => js = [] ∧ frames = []
  | .constructing _ => js = [] ∧ frames = []
  | .running d phase _ => phase.InStream T ds place js frames d

/-- The datagram is number `j` of the stream. -/
def OfStream (T : Tunnel H) (ds : List (Datagram H)) (j : Nat) (p : UdpDatagram) : Prop :=
  ∃ D, ds[j]? = some D ∧ p.data = D.bytes T.host

/-- Each of those that have a number is of the stream. -/
theorem exists_ofStream {ds : List (Datagram H)} {js : List Nat} {ps : List UdpDatagram} {p : UdpDatagram}
    (h : List.Forall₂ (OfStream T ds) js ps) (hp : p ∈ ps) : ∃ j, OfStream T ds j p := by
  obtain ⟨k, hk, rfl⟩ := List.getElem_of_mem hp
  exact ⟨_, List.Forall₂.get h (h.length_eq ▸ hk) hk⟩

namespace ReceiveSide
variable {rcfg : ReaderConfig} {s s' : ReceiveSide H T.B} {event : ReceiveEvent T.B}
  {events : List (ReceiveEvent T.B)} {n : In6Addr} {available : List Nat} {ds : List (Datagram H)}
  {place : Nat → Cursor H × UInt32} {s0 : UInt32} {js js' : List Nat}
  {frames : List (PacketBuffer T.B)}

/-- The frames that were pushed are the receiver's, as far as the decoder is. -/
theorem frames_of_inStream {thread : DecoderThread H T.B} (h : thread.InStream T ds place js frames) :
    frames.map PacketBuffer.data <+: (Receiver.run ds place js).frames.map EncodedFrame.frame := by
  cases thread with
  | starting =>
    obtain ⟨rfl, rfl⟩ := h
    exact List.nil_prefix
  | constructing =>
    obtain ⟨rfl, rfl⟩ := h
    exact List.nil_prefix
  | running d phase buffers =>
    cases phase with
    | idle => exact ⟨[], (List.append_nil _).trans (PacketDecoder.Mirrors.frames h)⟩
    | options packetBuffer pos flag =>
      obtain ⟨js0, j, D, -, -, hat⟩ := h
      obtain ⟨pre, c, rs, todo, -, -, -, -, hframes⟩ := hat.rest
      exact ⟨_, hframes⟩
    | refill packetBuffer assembled pos =>
      obtain ⟨js0, j, D, -, -, hat⟩ := h
      obtain ⟨pre, c, rs, -, -, -, hframes⟩ := hat.rest
      exact ⟨_, hframes⟩

/-- The constructor. -/
theorem inStream_constructed {dcomp_buffer : PacketBuffer T.B} {d : PacketDecoder H T.B}
    {tx_buffer_pool : BufferPool (PacketBuffer T.B) T.B} {free : List (PacketBuffer T.B)}
    (hrun : (_getTxBuffer : DecoderCall H T.B Unit).run
      { init (T.decoder heap) tx_buffer_pool ⟨free⟩ with dcomp_buffer := some dcomp_buffer } = .ok () d) :
    Mirrors ds place (Receiver.run ds place []) (d.apart []) := by
  obtain ⟨tx, rest, -, rfl⟩ := constructed_eq hrun
  refine ⟨rfl, fun _ => ⟨rfl, fun h => absurd h (Nat.lt_irrefl 0), ⟨_, rfl, rfl⟩, ⟨_, rfl⟩, ?_⟩, nofun⟩
  rw [stream, Tunnel.lib]
  split <;> rfl

/-- **One step of any thread**, for the decoder of a node that is in a stream. -/
theorem inStream_step (hlib : LosslessLib T) (h : Places T s0 ds place)
    (hstep : Step rcfg (T.decoder heap) s event s')
    (hin : (s.decoder n).InStream T ds place js (framesOf n events))
    (harr : List.Forall₂ (OfStream T ds) js' (decodedBy n [event]))
    (hon : ∀ j js1 D (d : PacketDecoder H T.B), js' = j :: js1 → ds[j]? = some D →
      Mirrors ds place (Receiver.run ds place js) d → Honest (Receiver.run ds place js) j D.sequence d) :
    (s'.decoder n).InStream T ds place (js ++ js') (framesOf n (events ++ [event])) := by
  -- the decoder of the node does nothing
  have hkept : ∀ {s' : ReceiveSide H T.B}, decodedBy n [event] = [] → framesOf n [event] = [] →
      (s'.decoder n).InStream T ds place js (framesOf n events) →
      (s'.decoder n).InStream T ds place (js ++ js') (framesOf n (events ++ [event])) := by
    intro s' hdecoded hframes hin'
    rw [hdecoded] at harr
    obtain rfl := List.forall₂_nil_right_iff.mp harr
    rw [framesOf_concat, hframes, List.append_nil, List.append_nil]
    exact hin'
  -- its thread is where it is now
  have hupdate : ∀ {m : In6Addr} {thread : DecoderThread H T.B},
      (n = m → thread.InStream T ds place js (framesOf n events)) →
      (Function.update s.decoder m thread n).InStream T ds place js (framesOf n events) := by
    intro m thread hthread
    by_cases hm : n = m
    · rw [hm, Function.update_self, ← hm]
      exact hthread hm
    · rw [Function.update_of_ne hm]
      exact hin
  cases hstep with
  | reader => exact hkept rfl rfl hin
  | @construct m dcomp_buffer pool node thread pop =>
    refine hkept rfl rfl (hupdate fun hm => ?_)
    rw [hm, thread] at hin
    rw [hm]
    exact hin
  | @constructed m dcomp_buffer d thread run =>
    refine hkept rfl rfl (hupdate fun hm => ?_)
    rw [hm, thread] at hin
    obtain ⟨rfl, hnone⟩ := hin
    rw [hm, hnone]
    exact inStream_constructed run
  | @wait m d thread =>
    refine hkept rfl rfl (hupdate fun hm => ?_)
    rw [hm, thread] at hin
    rw [hm]
    exact hin
  | @decode m d phase buffers frames event t thread turn own first pushed =>
    show (Function.update s.decoder m (.running t.decoder t.phase t.others) n).InStream T ds place
      (js ++ js') _
    by_cases hm : n = m
    swap
    · rw [Function.update_of_ne hm]
      refine @hkept s ?_ ?_ hin
      · rw [decodedBy_decoded, if_neg (Ne.symm hm)]
      · rw [framesOf_decoded, if_neg (Ne.symm hm)]
    subst hm
    rw [thread] at hin
    have hlent : phase.InStream T ds place js (framesOf n events) (s.lend d) :=
      Phase.InStream.pools hin _ _
    rw [Function.update_self, framesOf_concat, framesOf_decoded, if_pos rfl]
    rw [decodedBy_decoded, if_pos rfl] at harr
    cases event with
    | arrives packetBuffer =>
      obtain ⟨j, js1, ⟨D, hD, hdata⟩, hnil, rfl⟩ := List.forall₂_cons_right_iff.mp harr
      obtain rfl := List.forall₂_nil_right_iff.mp hnil
      exact hlent.arrives h turn pushed hD hdata fun d hd => hon j [] D d rfl hD hd
    | decodes =>
      obtain rfl := List.forall₂_nil_right_iff.mp harr
      rw [List.append_nil]
      exact hlent.decodes hlib turn pushed
    | others => exact absurd rfl own
  | tapWait => exact hkept rfl rfl hin
  | tapHandle => exact hkept rfl rfl hin
  | tapGiveBack => exact hkept rfl rfl hin
  | learning => exact hkept rfl rfl hin

variable {heap' : Nat → PacketBuffer T.B} {tap_writer : TapWriter} {received : List UdpDatagram}

/-- **A run**: the decoder of the node is in the stream, behind the datagrams that it was called with. -/
theorem inStream_of_path (hlib : LosslessLib T) (h : Places T s0 ds place)
    (harr : List.Forall₂ (OfStream T ds) js received)
    (hon : ∀ js1 j js2 D (d : PacketDecoder H T.B), js = js1 ++ j :: js2 → ds[j]? = some D →
      Mirrors ds place (Receiver.run ds place js1) d → Honest (Receiver.run ds place js1) j D.sequence d)
    (hrun : StepPath (Step rcfg (T.decoder heap)) (ReceiveSide.start heap' available tap_writer) events s)
    (hdecoded : decodedBy n events <+: received) :
    (s.decoder n).InStream T ds place (js.take (decodedBy n events).length) (framesOf n events) := by
  refine hrun.invariant_prefix [] (I := fun events s => decodedBy n events <+: received →
    (s.decoder n).InStream T ds place (js.take (decodedBy n events).length) (framesOf n events)) ?_
    (fun _ => ⟨List.take_zero, rfl⟩) hdecoded
  intro events s event t hs hstep hprefix
  rw [decodedBy_concat] at hprefix ⊢
  obtain ⟨rest, hrest⟩ := hprefix
  have hin := hs ((List.prefix_append _ _).trans ⟨rest, hrest⟩)
  rw [← hrest, List.append_assoc] at harr
  -- the numbers of the datagrams before this step, and of the one in it
  obtain ⟨js1, js2, h1, h2, rfl⟩ : ∃ js1 js2, List.Forall₂ (OfStream T ds) js1 (decodedBy n events) ∧
      List.Forall₂ (OfStream T ds) js2 (decodedBy n [event] ++ rest) ∧ js = js1 ++ js2 :=
    ⟨_, _, List.forall₂_take_append _ _ _ harr, List.forall₂_drop_append _ _ _ harr,
      (List.take_append_drop _ _).symm⟩
  obtain ⟨js2, js3, h3, -, rfl⟩ : ∃ js3 js4, List.Forall₂ (OfStream T ds) js3 (decodedBy n [event]) ∧
      List.Forall₂ (OfStream T ds) js4 rest ∧ js2 = js3 ++ js4 :=
    ⟨_, _, List.forall₂_take_append _ _ _ h2, List.forall₂_drop_append _ _ _ h2,
      (List.take_append_drop _ _).symm⟩
  rw [← h1.length_eq, List.take_left] at hin
  rw [List.length_append, ← h1.length_eq, ← h3.length_eq, ← List.append_assoc, ← List.length_append,
    List.take_left]
  refine inStream_step hlib h hstep hin h3 fun j js4 D d hjs hD hd => ?_
  refine hon js1 j (js4 ++ js3) D d ?_ hD hd
  rw [hjs, List.cons_append]

/-- The invariant of sources, along a run. -/
theorem Sourced.of_path (h : available.Nodup)
    (hrun : StepPath (Step rcfg (T.decoder heap)) (ReceiveSide.start heap' available tap_writer) events s) :
    Sourced events s := by
  have hboth : Inv rcfg available events s ∧ Sourced events s := by
    refine hrun.invariant_prefix [] (I := fun events s => Inv rcfg available events s ∧ Sourced events s) ?_
      ⟨Inv.start h, fun _ _ hb => absurd hb List.not_mem_nil, fun _ _ hb => absurd hb List.not_mem_nil⟩
    rintro events s event t ⟨hinv, hs⟩ hstep
    exact ⟨hinv.step hstep, hs.step hinv hstep⟩
  exact hboth.2

/-- **What reaches the TAP writer from a node**: the frames that the datagrams carry which came, in the
order in which they were accepted; all of them when nothing is on its way.  No decoder called LZ4 on what
other threads may have written over. -/
structure Delivers (rcfg : ReaderConfig) (n : In6Addr) (carried : List (List UInt8))
    (events : List (ReceiveEvent T.B)) (s : ReceiveSide H T.B) : Prop where
  handled : (((framesHandled events).filter fun b => FromNode n b).map PacketBuffer.data) <+: carried
  quiet : Quiet rcfg s → ((framesHandled events).filter fun b => FromNode n b).map PacketBuffer.data = carried
  safe : ∀ m, (s.decoder m).Lz4Safe

theorem delivers_of_places (hlib : LosslessLib T) (h : Places T s0 ds place) (hnodup : available.Nodup)
    (hrun : StepPath (Step rcfg (T.decoder heap)) (ReceiveSide.start heap' available tap_writer) events s)
    (hn : n ∈ rcfg.remote_nodes)
    (harr : List.Forall₂ (OfStream T ds) js ((arrivals (readerEvents events)).filter (GoesTo rcfg n)))
    (honce : Lz4Once rcfg T heap n events)
    (hon : ∀ js1 j js2 D (d : PacketDecoder H T.B), js = js1 ++ j :: js2 → ds[j]? = some D →
      Mirrors ds place (Receiver.run ds place js1) d → Honest (Receiver.run ds place js1) j D.sequence d) :
    Delivers rcfg n ((Receiver.run ds place js).frames.map EncodedFrame.frame) events s := by
  have hinv := Inv.of_path hnodup hrun
  have horder := hinv.inOrder
  have hsourced := Sourced.of_path hnodup hrun
  have hin := inStream_of_path hlib h harr hon hrun (horder.decoded n hn)
  refine ⟨?_, fun hquiet => ?_, ?_⟩
  · have hhandled := (horder.handled.filter fun b => FromNode n b).map PacketBuffer.data
    rw [filter_framesPushed n hsourced.frames] at hhandled
    refine hhandled.trans ((frames_of_inStream hin).trans ?_)
    have hmore := Receiver.frames_run_append ds place (js.take (decodedBy n events).length)
      (js.drop (decodedBy n events).length)
    rw [List.take_append_drop] at hmore
    exact hmore.map _
  · obtain ⟨hhandled, hdecoded⟩ := horder.quiet hquiet
    rw [hhandled, filter_framesPushed n hsourced.frames]
    rw [hdecoded n hn, ← harr.length_eq, List.take_length] at hin
    rcases hquiet.decoder n hn with hthread | ⟨d, hthread⟩
    · rw [hthread] at hin
      obtain ⟨rfl, hnone⟩ := hin
      rw [hnone]
      rfl
    · rw [hthread] at hin
      exact PacketDecoder.Mirrors.frames hin
  · refine lz4Safe_of_path hnodup hrun fun m => ?_
    by_cases hm : m = n → T.packet_format = COMPRESSED_LZ4
    · exact honce m hm
    · -- the encoder of this node uses another format
      obtain ⟨rfl, hformat⟩ := Classical.not_imp.mp hm
      intro p hp packetBuffer hdata
      obtain ⟨j, D, hD, hbytes⟩ := exists_ofStream harr hp
      exact not_repeatsLz4_of_format h hD (hdata.trans hbytes) hformat

end ReceiveSide

/-- Between two of its turns the encoder holds a stream. -/
theorem EncoderThread.idle_of_path (hlib : PacketEncoder.Bounded T) {made : List (PacketBuffer T.B)}
    {encoder : PacketEncoder H T.B} {thread : EncoderThread T} {labels : List (List (PacketBuffer T.B))}
    (hstart : PacketEncoder.Starts T.libs T.packet_format 1 made encoder)
    (hrun : StepPath Step (start encoder) labels thread) :
    PacketEncoder.Idle T 1 thread.encoder :=
  (keeps_of_path hlib hstart hrun).idle

end SuperEthd
