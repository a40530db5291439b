import SuperEthd.Carriers
import SuperEthd.ReceiveSide

/-! # LZ4's history in the receiving half

The history of a `StreamDecompressor` is a value of its own, which no other thread can reach.  LZ4 keeps no
such value: its stream points to what was decoded before, and that lies in buffers which the decoder has
pushed by then and which the reader, the TAP writer and the other decoders use again.

* `RepeatsLz4` says which datagrams make `decode` call LZ4 with such a pointer.
* As long as none of them goes to a decoder (`NoneRepeatsLz4`), every call of LZ4 is on a stream that was
  reset before, so that there is nothing to point to (`DecoderThread.Lz4Safe`), and the history of the model
  is the one the library has.
* The datagrams of an encoder whose format is another one, and those with a single frame, do not repeat
  LZ4.

Without it the library may return anything that fits, so nothing can be said of the frames of a decoder;
that buffers are conserved and handed on in order does not depend on what it returns. -/
namespace SuperEthd
open PacketHeaderOptionFormatType PacketDecoder

variable {H : Type} {B : Nat}

/-- **None of the datagrams that came in for the node repeats LZ4**, whatever its buffer holds behind it. -/
def NoneRepeatsLz4 (rcfg : ReaderConfig) (cfg : DecoderConfig H) (n : In6Addr)
    (events : List (ReceiveEvent B)) : Prop :=
  ∀ p ∈ (arrivals (readerEvents events)).filter (GoesTo rcfg n), ∀ packetBuffer : PacketBuffer B,
    packetBuffer.data = p.data → ¬RepeatsLz4 cfg packetBuffer

namespace DecoderThread

/-- **Every call of LZ4's `decompress`** that the thread made found the blocks it may read. -/
def Lz4Safe : DecoderThread H B → Prop
  | .running d _ _ => ∀ call ∈ d.lz4Calls, call.Safe
  | _ => True

/-- The invariant of `Threads`, of its decoder. -/
def CallsSafe (cfg : DecoderConfig H) : DecoderThread H B → Prop
  | .running d phase buffers => Threads.Inv cfg ⟨d, phase, buffers⟩
  | _ => True

theorem CallsSafe.lz4Safe {cfg : DecoderConfig H} {thread : DecoderThread H B} (h : thread.CallsSafe cfg) :
    thread.Lz4Safe := by
  cases thread with
  | starting => trivial
  | constructing => trivial
  | running d phase buffers => exact Threads.Inv.safe h

end DecoderThread

/-! ## The threads -/

namespace ReceiveSide
variable {rcfg : ReaderConfig} {cfg : DecoderConfig H} {s s' : ReceiveSide H B} {event : ReceiveEvent B}
  {events : List (ReceiveEvent B)} {available : List Nat} {heap : Nat → PacketBuffer B} {tap_writer : TapWriter}

/-- **One step of any thread**, when no datagram that `decode` is called with repeats LZ4. -/
theorem callsSafe_step (h : ∀ n, (s.decoder n).CallsSafe cfg) (hinv : Inv rcfg available events s)
    (hstep : Step rcfg cfg s event s')
    (honce : ∀ n ∈ rcfg.remote_nodes, ∀ p ∈ decodedBy n [event], ∀ packetBuffer : PacketBuffer B,
      packetBuffer.data = p.data → ¬RepeatsLz4 cfg packetBuffer) : ∀ n, (s'.decoder n).CallsSafe cfg := by
  -- the thread of a node goes on
  have hupdate : ∀ {n : In6Addr} {thread : DecoderThread H B}, thread.CallsSafe cfg →
      ∀ m, (Function.update s.decoder n thread m).CallsSafe cfg := fun hthread =>
    (Function.forall_update_iff s.decoder (fun _ thread => thread.CallsSafe cfg)).mpr ⟨hthread, fun m _ => h m⟩
  cases hstep with
  | reader => exact h
  | construct => exact hupdate trivial
  | constructed thread run =>
    obtain ⟨tx, rest, -, rfl⟩ := constructed_eq run
    exact hupdate Threads.inv_of_new
  | @wait n d thread =>
    have hn := h n
    rw [thread] at hn
    have hn : Threads.Inv cfg ⟨d, .idle, []⟩ := hn
    exact hupdate (hn.pools d.tx_buffer_pool d.available_buffer_pool)
  | @decode n d phase buffers frames event t thread turn =>
    have hn := h n
    rw [thread] at hn
    have hn : Threads.Inv cfg ⟨d, phase, buffers⟩ := hn
    have hlent : Threads.Inv cfg ⟨s.lend d, phase, buffers⟩ := hn.pools s.tap_write_pool ⟨s.reader.free⟩
    refine hupdate (Threads.Inv.step hlent turn fun packetBuffer heq => ?_)
    have hdecoded : packetBuffer.datagram ∈ decodedBy n [.decoded n event.datagrams frames] := by
      rw [decodedBy_decoded, if_pos rfl, heq]
      exact List.mem_singleton_self _
    exact honce n (hinv.mem_of_decoder (by rw [thread]; intro heq; cases heq)) _ hdecoded packetBuffer rfl
  | tapWait => exact h
  | tapHandle => exact h
  | tapGiveBack => exact h
  | learning => exact h

/-- **If no datagram that goes to a decoder repeats LZ4**, every call of its `decompress` is safe, in every
decoder and however the threads are interleaved. -/
theorem lz4Safe_of_path (hnodup : available.Nodup)
    (hrun : StepPath (Step rcfg cfg) (ReceiveSide.start heap available tap_writer) events s)
    (honce : ∀ n, NoneRepeatsLz4 rcfg cfg n events) : ∀ n, (s.decoder n).Lz4Safe := by
  have hboth : Inv rcfg available events s ∧ ((∀ n ∈ rcfg.remote_nodes, ∀ p ∈ decodedBy n events,
      ∀ packetBuffer : PacketBuffer B, packetBuffer.data = p.data → ¬RepeatsLz4 cfg packetBuffer) →
        ∀ n, (s.decoder n).CallsSafe cfg) := by
    refine hrun.invariant_prefix [] (I := fun events s => Inv rcfg available events s ∧
      ((∀ n ∈ rcfg.remote_nodes, ∀ p ∈ decodedBy n events, ∀ packetBuffer : PacketBuffer B,
        packetBuffer.data = p.data → ¬RepeatsLz4 cfg packetBuffer) → ∀ n, (s.decoder n).CallsSafe cfg)) ?_
      ⟨Inv.start hnodup, fun _ _ => trivial⟩
    rintro events s event t ⟨hinv, hs⟩ hstep
    refine ⟨hinv.step hstep, fun honce' => ?_⟩
    simp only [decodedBy_concat, List.mem_append] at honce'
    exact callsSafe_step (hs fun n hn p hp => honce' n hn p (Or.inl hp)) hinv hstep
      fun n hn p hp => honce' n hn p (Or.inr hp)
  intro n
  exact (hboth.2 (fun n hn p hp => honce n p ((hboth.1.inOrder.decoded n hn).subset hp)) n).lz4Safe

end ReceiveSide

/-! ## The datagrams of an encoder -/

section Stream
variable {T : Tunnel H} {heap : Nat → UInt8} {packetBuffer : PacketBuffer T.B} {D : Datagram H}
  {options : List PacketHeaderOption} {pos : Nat}

/-- **A walk through a datagram** goes from record to record. -/
theorem walks_records {pre : List UInt8} {rs : List (Record H)} {start : Nat}
    (hdata : packetBuffer.data = pre ++ rs.flatMap Record.bytes) (hvalid : ∀ r ∈ rs, r.of.Valid T)
    (h : StepPath (Walks (T.decoder heap) packetBuffer) start options pos) (hstart : start = pre.length) :
    ∃ rs1 rs2, rs = rs1 ++ rs2 ∧ options = rs1.map Record.option ∧
      pos = (pre ++ rs1.flatMap Record.bytes).length := by
  induction h generalizing pre rs with
  | nil => exact ⟨[], rs, rfl, rfl, by rw [hstart, List.flatMap_nil, List.append_nil]⟩
  | cons hstep _ ih =>
    cases rs with
    | nil => exact absurd (hstart ▸ hstep.more) ((records_eq_nil_iff hdata).mp rfl)
    | cons r rs =>
      have hstands : Stands packetBuffer pre r := .of_cons rs hdata
      have hoption := optionAt_eq (hvalid r List.mem_cons_self) hstands heap
      have hdata' : packetBuffer.data = (pre ++ r.bytes) ++ rs.flatMap Record.bytes := by
        rw [hdata, List.flatMap_cons, List.append_assoc]
      obtain ⟨rs1, rs2, hrs, hoptions, hpos⟩ := ih hdata' (fun r' hr => hvalid r' (List.mem_cons_of_mem _ hr))
        (by rw [hstep.next, hstep.option_eq, hstart, hoption, nextPos_option hstands, List.length_append,
          r.bytes_length])
      refine ⟨r :: rs1, rs2, by rw [hrs]; rfl, ?_, ?_⟩
      · rw [hoptions, hstep.option_eq, hstart, hoption]
        rfl
      · rw [hpos, List.flatMap_cons, List.append_assoc]

/-- **A datagram of a stream that repeats LZ4** carries a whole frame in LZ4 and behind it another in LZ4. -/
theorem exists_records_of_repeatsLz4 (hdata : packetBuffer.data = D.bytes T.host)
    (hvalid : ∀ r ∈ D.records, r.of.Valid T) (h : RepeatsLz4 (T.decoder heap) packetBuffer) :
    ∃ rs1 r rs2, D.records = rs1 ++ r :: rs2 ∧ (∃ whole ∈ rs1, whole.of.format = COMPRESSED_LZ4) ∧
      r.of.format = COMPRESSED_LZ4 := by
  obtain ⟨options, pos, hwalk, ⟨whole, hmem, hwhole⟩, hpos, -, hstarts⟩ := h.later
  obtain ⟨rs1, rs2, hrecords, rfl, rfl⟩ := walks_records hdata hvalid hwalk
    (PacketHeader.bytes_length T.host (PacketEncoder.header D.sequence 1)).symm
  have hdata' : packetBuffer.data = (PacketEncoder.header D.sequence 1).bytes T.host ++
      rs1.flatMap Record.bytes ++ rs2.flatMap Record.bytes := by
    rw [hdata, Datagram.bytes, hrecords, List.flatMap_append, List.append_assoc]
  cases rs2 with
  | nil => exact absurd hpos ((records_eq_nil_iff hdata').mp rfl)
  | cons r rs2 =>
    rw [optionAt_eq (hvalid r (by rw [hrecords]; exact List.mem_append_right _ List.mem_cons_self))
      (.of_cons rs2 hdata') heap] at hstarts
    obtain ⟨before, hbefore, rfl⟩ := List.mem_map.mp hmem
    exact ⟨rs1, r, rs2, hrecords, ⟨before, hbefore, hwhole.2⟩, hstarts.2⟩

/-- **In another format** none does. -/
theorem not_repeatsLz4_of_format {s0 : UInt32} {ds : List (Datagram H)}
    {place : Nat → Cursor H × UInt32} {j : Nat} (h : Places T s0 ds place) (hD : ds[j]? = some D)
    (hdata : packetBuffer.data = D.bytes T.host) (hformat : T.packet_format ≠ COMPRESSED_LZ4) :
    ¬RepeatsLz4 (T.decoder heap) packetBuffer := by
  intro hrepeats
  obtain ⟨c, hpath, -⟩ := (h.emits hD).path
  have hvalid : ∀ r ∈ D.records, r.of.Valid T :=
    hpath.forall_labels (I := fun _ => True) (fun _ _ _ _ hstep => ⟨hstep.valid, trivial⟩) trivial
  obtain ⟨rs1, r, rs2, hrecords, -, hlz4⟩ := exists_records_of_repeatsLz4 hdata hvalid hrepeats
  have hr : r ∈ D.records := by
    rw [hrecords]
    exact List.mem_append_right _ List.mem_cons_self
  rcases (hvalid r hr).encoded with ⟨hnone, -⟩ | ⟨-, hsame, -⟩
  · cases hnone.symm.trans hlz4
  · exact hformat (hsame.symm.trans hlz4)

/-- **Nor does one with a single frame.** -/
theorem not_repeatsLz4_of_single {r : Record H} (hrecords : D.records = [r]) (hvalid : r.of.Valid T)
    (hdata : packetBuffer.data = D.bytes T.host) : ¬RepeatsLz4 (T.decoder heap) packetBuffer := by
  intro hrepeats
  obtain ⟨rs1, r', rs2, hsplit, ⟨whole, hwhole, -⟩, -⟩ := exists_records_of_repeatsLz4 hdata
    (by rw [hrecords]; exact List.forall_mem_singleton.mpr hvalid) hrepeats
  rw [hrecords] at hsplit
  have hlen := congrArg List.length hsplit
  rw [List.length_append, List.length_singleton, List.length_cons] at hlen
  have hpos := List.length_pos_of_mem hwhole
  omega

/-- **LZ4 once in a datagram**: none that came in from another node repeats LZ4, nor does one from `n` where
LZ4 is the format of its encoder. -/
def Lz4Once (rcfg : ReaderConfig) (T : Tunnel H) (heap : Nat → UInt8) (n : In6Addr)
    (events : List (ReceiveEvent T.B)) : Prop :=
  ∀ m, (m = n → T.packet_format = COMPRESSED_LZ4) → NoneRepeatsLz4 rcfg (T.decoder heap) m events

/-- Where all that comes in has a single frame, as one datagram has. -/
theorem lz4Once_of_single {rcfg : ReaderConfig} {events : List (ReceiveEvent T.B)} {r : Record H}
    (hrecords : D.records = [r]) (hvalid : r.of.Valid T)
    (harr : ∀ p ∈ arrivals (readerEvents events), p.data = D.bytes T.host) (n : In6Addr) :
    Lz4Once rcfg T heap n events :=
  fun _ _ p hp _ hdata => not_repeatsLz4_of_single hrecords hvalid (hdata.trans (harr p (List.mem_filter.mp hp).1))

end Stream
end SuperEthd
