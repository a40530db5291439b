import SuperEthd.OptionLoop

/-! # Reads past the datagram

A datagram lies in a buffer that was used before, so there are old bytes behind its data.

* `Inspects` says which bytes of the buffer `decode` looks at.  In the loop over the payloads these are
  the two sizes of an option header, its type if the frame is not too big, and its format and its part
  if the type is one that is handled; `reserved` was looked at for the first option alone.
* `decode_agree` says that there are no others: two buffers with the same bytes at these offsets are
  decoded alike, whatever else is in them.
* That loop tests only that an option starts inside the data.  So bytes behind the data are looked at
  exactly when `decode` comes to an option of which too little is left (`readsWithin_iff`), and they can
  decide what is delivered (`stale_bytes_delivered`).
-/
namespace SuperEthd
open PacketHeaderOptionType PacketHeaderOptionFormatType

/-- The same decoder, where reads past the storage of a buffer find something else. -/
def DecoderConfig.withHeap {H : Type} (cfg : DecoderConfig H) (heap : Nat → UInt8) :
    DecoderConfig H := { cfg with heap := heap }

namespace PacketDecoder
variable {H : Type} {B : Nat} (cfg : DecoderConfig H)

/-- **The bytes of an option header** that the loop over the payloads looks at. -/
inductive HeaderRead (option : PacketHeaderOption) : Nat → Prop
  /-- the sizes are read before anything is tested -/
  | packet_size {i : Nat} : i = 1 ∨ i = 2 → HeaderRead option i
  | payload_length {i : Nat} : i = 4 ∨ i = 5 → HeaderRead option i
  | type : option.packet_size ≤ cfg.l2mtu → HeaderRead option 0
  | part : Handled cfg option → HeaderRead option 6
  /-- not on every path of these, but it lies before the part -/
  | format : Handled cfg option → HeaderRead option 3

/-- **The payload is read**: all checks that are made before let the option pass. -/
structure PayloadRead (packetBuffer : PacketBuffer B) (option : PacketHeaderOption) (pos : Nat)
    (d : PacketDecoder H B) : Prop extends Checked cfg packetBuffer pos option where
  used : Used d option
  room : option.type ≠ COMPLETE_PACKET → d.assembled.length + option.payload_length ≤ B
  plain : option.type ≠ COMPLETE_PACKET → option.formatIsCompressed = false →
    d.assembled.length + option.payload_length ≤ option.packet_size

/-- **The bytes that `decode` inspects or copies**, by their offsets in the buffer. -/
inductive Inspects (d : PacketDecoder H B) (packetBuffer : PacketBuffer B) : Nat → Prop
  /-- the packet header, if the datagram is not shorter -/
  | header {i : Nat} (long : PacketHeader.size ≤ packetBuffer.dataSize) (field : i < PacketHeader.size) :
    Inspects d packetBuffer i
  /-- the first option, in the loop over the header options -/
  | first {i : Nat} (long : PacketHeader.size ≤ packetBuffer.dataSize)
    (valid : HeaderValid (headerOf cfg packetBuffer)) (opt_len : (headerOf cfg packetBuffer).opt_len ≠ 0)
    (room : PacketHeaderOption.size ≤ packetBuffer.dataSize - PacketHeader.size) (field : i = 0 ∨ i = 7) :
    Inspects d packetBuffer (PacketHeader.size + i)
  /-- an option, in the loop over the payloads -/
  | option {pos : Nat} {flag : Bool} {d1 : PacketDecoder H B} {i : Nat}
    (reaches : Reaches cfg packetBuffer d pos flag d1) (more : pos < packetBuffer.dataSize)
    (field : HeaderRead cfg (optionAt cfg packetBuffer pos) i) : Inspects d packetBuffer (pos + i)
  | payload {pos : Nat} {flag : Bool} {d1 : PacketDecoder H B} {i : Nat}
    (reaches : Reaches cfg packetBuffer d pos flag d1) (more : pos < packetBuffer.dataSize)
    (read : PayloadRead cfg packetBuffer (optionAt cfg packetBuffer pos) pos d1)
    (within : i < (optionAt cfg packetBuffer pos).payload_length) :
    Inspects d packetBuffer (payloadPos pos + i)

/-- The other buffer has the same bytes where the datagram is read, and the same size and source. -/
structure SameWhereRead (heap : Nat → UInt8) (d : PacketDecoder H B) (packetBuffer other : PacketBuffer B) :
    Prop where
  dataSize : other.dataSize = packetBuffer.dataSize
  source : other.source = packetBuffer.source
  bytes : ∀ offset, Inspects cfg d packetBuffer offset →
    other.byteAt heap offset = packetBuffer.byteAt cfg.heap offset

/-- The two options differ in `reserved` at most. -/
def SameFields (option option' : PacketHeaderOption) : Prop :=
  option' = { option with reserved := option'.reserved }

/-- The two decoders differ in what is recorded at most: in the calls of LZ4, which name the buffers, and
in the `reserved` of the options that completed a frame. -/
def Same (d d' : PacketDecoder H B) : Prop :=
  ∃ calls completed, d' = { d with lz4Calls := calls, completedBy := completed } ∧
    List.Forall₂ SameFields d.completedBy completed

/-- The two buffers are the same, or those that were handed in. -/
def Stands (packetBuffer other b b' : PacketBuffer B) : Prop :=
  b = b' ∨ b = packetBuffer ∧ b' = other

/-- **The decoders are alike**: where one holds `packetBuffer`, the other holds it or `other`. -/
def Alike (packetBuffer other : PacketBuffer B) (d d' : PacketDecoder H B) : Prop :=
  ∃ calls completed inflight available, d' = { d with
    lz4Calls := calls
    completedBy := completed
    inflight_buffers := inflight
    available_buffer_pool := ⟨available⟩ } ∧
  List.Forall₂ SameFields d.completedBy completed ∧
  List.Forall₂ (Stands packetBuffer other) d.inflight_buffers inflight ∧
  List.Forall₂ (Stands packetBuffer other) d.available_buffer_pool.pool available

/-- **Nothing past the data is read** of the datagram: every byte that `decode` inspects or copies is
inside the data, so are the payloads of the options it acts on, and what is behind the data, in the
buffer and after it, has no influence. -/
structure ReadsWithin (d : PacketDecoder H B) (packetBuffer : PacketBuffer B) : Prop where
  inspected : ∀ offset, Inspects cfg d packetBuffer offset → offset < packetBuffer.dataSize
  payloads : ∀ pos flag d1 r d2, Reaches cfg packetBuffer d pos flag d1 →
    pos < packetBuffer.dataSize → (takeOption cfg packetBuffer pos flag).run d1 = .ok r d2 →
    ActedOn d1 d2 → payloadPos pos + (optionAt cfg packetBuffer pos).payload_length ≤
      packetBuffer.dataSize
  stale : ∀ heap (other : PacketBuffer B) fuel, other.data = packetBuffer.data →
    other.source = packetBuffer.source →
    Call.Agree d d (decode cfg fuel packetBuffer) (decode (cfg.withHeap heap) fuel other)
      (fun _ => Alike packetBuffer other) (Alike packetBuffer other)

variable {cfg} {heap : Nat → UInt8} {d d' : PacketDecoder H B} {packetBuffer other : PacketBuffer B}
  {pos : Nat} {flag : Bool} {option option' : PacketHeaderOption} {tx : PacketBuffer B}

/-! ## What is read is what matters -/

theorem dataSize_eq_of_data (hdata : other.data = packetBuffer.data) :
    other.dataSize = packetBuffer.dataSize := by
  rw [← PacketBuffer.data_length, hdata, PacketBuffer.data_length]

theorem byteAt_eq_of_data (hdata : other.data = packetBuffer.data) (h : pos < packetBuffer.dataSize)
    (heap heap' : Nat → UInt8) : other.byteAt heap pos = packetBuffer.byteAt heap' pos := by
  rw [PacketBuffer.byteAt_of_lt (dataSize_eq_of_data hdata ▸ h), PacketBuffer.byteAt_of_lt h, hdata]

/-- Where all that is read is inside the data, equal data are the same where the datagram is read. -/
theorem SameWhereRead.of_data (hdata : other.data = packetBuffer.data)
    (hsource : other.source = packetBuffer.source)
    (hinside : ∀ offset, Inspects cfg d packetBuffer offset → offset < packetBuffer.dataSize) :
    SameWhereRead cfg heap d packetBuffer other :=
  ⟨dataSize_eq_of_data hdata, hsource, fun offset h => byteAt_eq_of_data hdata (hinside offset h) _ _⟩

/-- Payloads with the same bytes. -/
theorem slice_eq_of_bytes {length : Nat} (hsize : other.dataSize = packetBuffer.dataSize)
    (hfit : pos + length ≤ packetBuffer.dataSize)
    (hbytes : ∀ i, i < length → other.byteAt heap (pos + i) = packetBuffer.byteAt cfg.heap (pos + i)) :
    other.slice pos length = packetBuffer.slice pos length := by
  have hfit' : pos + length ≤ other.dataSize := hsize ▸ hfit
  apply List.ext_getElem
  · rw [PacketBuffer.slice_length hfit, PacketBuffer.slice_length hfit']
  intro i hi hi'
  rw [PacketBuffer.slice_length hfit'] at hi
  have hbyte := hbytes i hi
  rw [PacketBuffer.byteAt_of_lt (by omega), PacketBuffer.byteAt_of_lt (by omega)] at hbyte
  simp only [PacketBuffer.slice_eq hfit, PacketBuffer.slice_eq hfit', List.getElem_take, List.getElem_drop]
  rw [List.getElem_eq_getD 0, List.getElem_eq_getD 0]
  exact hbyte

theorem SameWhereRead.headerOf_eq (h : SameWhereRead cfg heap d packetBuffer other)
    (hlong : PacketHeader.size ≤ packetBuffer.dataSize) :
    headerOf (cfg.withHeap heap) other = headerOf cfg packetBuffer :=
  PacketHeader.read_congr cfg.host fun i hi => h.bytes i (.header hlong hi)

theorem SameWhereRead.firstOptionValid_iff (h : SameWhereRead cfg heap d packetBuffer other)
    (hlong : PacketHeader.size ≤ packetBuffer.dataSize) (hvalid : HeaderValid (headerOf cfg packetBuffer)) :
    FirstOptionValid (cfg.withHeap heap) other ↔ FirstOptionValid cfg packetBuffer := by
  simp only [FirstOptionValid, h.headerOf_eq hlong, h.dataSize]
  refine and_congr_right fun hopt_len => and_congr_right fun hroom => ?_
  have hbyte : ∀ i, i = 0 ∨ i = 7 → other.byteAt heap (PacketHeader.size + i) =
      packetBuffer.byteAt cfg.heap (PacketHeader.size + i) :=
    fun i hi => h.bytes _ (.first hlong hvalid (by rw [hopt_len]; decide) hroom hi)
  have htype : (optionAt (cfg.withHeap heap) other PacketHeader.size).type =
      (optionAt cfg packetBuffer PacketHeader.size).type := hbyte 0 (Or.inl rfl)
  have hreserved : (optionAt (cfg.withHeap heap) other PacketHeader.size).reserved =
      (optionAt cfg packetBuffer PacketHeader.size).reserved := hbyte 7 (Or.inr rfl)
  rw [hreserved, PacketHeaderOption.typeIsValid, PacketHeaderOption.typeIsValid, htype]

/-- **What of the option is read** is the same. -/
structure SameOption (cfg : DecoderConfig H) (option option' : PacketHeaderOption) : Prop where
  packet_size : option'.packet_size = option.packet_size
  type : option.packet_size ≤ cfg.l2mtu → option'.type = option.type
  fields : Handled cfg option → SameFields option option'

theorem SameOption.of_bytes (h : ∀ i, HeaderRead cfg (optionAt cfg packetBuffer pos) i →
    other.byteAt heap (pos + i) = packetBuffer.byteAt cfg.heap (pos + i)) :
    SameOption cfg (optionAt cfg packetBuffer pos) (optionAt (cfg.withHeap heap) other pos) := by
  have h1 := h 1 (.packet_size (Or.inl rfl))
  have h2 := h 2 (.packet_size (Or.inr rfl))
  have h4 := h 4 (.payload_length (Or.inl rfl))
  have h5 := h 5 (.payload_length (Or.inr rfl))
  refine ⟨congrArg₂ BigEndian.read16 h1 h2, fun hsize => h 0 (.type hsize), fun hhandled => ?_⟩
  have h0 := h 0 (.type hhandled.1)
  have h3 := h 3 (.format hhandled)
  have h6 := h 6 (.part hhandled)
  unfold SameFields optionAt PacketHeaderOption.read
  simp only [PacketHeaderOption.mk.injEq, and_true]
  exact ⟨h0, congrArg₂ BigEndian.read16 h1 h2, h3, congrArg₂ BigEndian.read16 h4 h5, h6⟩

/-! ## Alike -/

theorem forall₂_stands (l : List (PacketBuffer B)) :
    List.Forall₂ (Stands packetBuffer other) l l :=
  List.forall₂_same.mpr fun _ _ => Or.inl rfl

theorem Same.refl (d : PacketDecoder H B) : Same d d :=
  ⟨_, _, rfl, List.forall₂_same.mpr fun _ _ => rfl⟩

theorem Same.alike (h : Same d d') : Alike packetBuffer other d d' := by
  obtain ⟨calls, completed, rfl, hcompleted⟩ := h
  exact ⟨calls, completed, _, _, rfl, hcompleted, forall₂_stands _, forall₂_stands _⟩

theorem Same.refusing (h : Same d d') : Alike packetBuffer other (d.refusing cfg packetBuffer)
    (d'.refusing (cfg.withHeap heap) other) := by
  obtain ⟨calls, completed, rfl, hcompleted⟩ := h
  refine ⟨calls, completed, [], d.available_buffer_pool.pool ++ (d.inflight_buffers ++ [other]), rfl,
    hcompleted, .nil, ?_⟩
  exact List.rel_append (forall₂_stands _)
    (List.rel_append (forall₂_stands _) (.cons (Or.inr ⟨rfl, rfl⟩) .nil))

/-! ## The parts of `decode` agree -/

theorem Call.Agree.bind_deref {α β : Type} {o : Option α} {f g : α → DecoderCall H B β}
    {R : β → PacketDecoder H B → PacketDecoder H B → Prop}
    {E : PacketDecoder H B → PacketDecoder H B → Prop}
    (some : ∀ a, o = some a → Call.Agree d d' (f a) (g a) R E) (null : E d d') :
    Call.Agree d d' (deref o >>= f) (deref o >>= g) R E := by
  cases o with
  | some a => exact .bind_returns (deref_some a d) (deref_some a d') (some a rfl)
  | none => exact ⟨rfl, null⟩

theorem _clearState_agree (h : Same d d') :
    Call.Agree d d' _clearState _clearState (fun _ => Same) (Alike packetBuffer other) := by
  have halike : Alike packetBuffer other d d' := h.alike
  obtain ⟨calls, completed, rfl, hcompleted⟩ := h
  refine .bind_get (Call.Agree.bind_deref (fun tx htx => ?_) halike)
  exact .returns rfl rfl ⟨calls, completed, rfl, hcompleted⟩

theorem clearAndFlush_agree (h : Same d d') :
    Call.Agree d d' (clearAndFlush cfg) (clearAndFlush (cfg.withHeap heap)) (fun _ => Same)
      (Alike packetBuffer other) := by
  refine (_clearState_agree h).bind fun _ d1 d1' h1 => ?_
  obtain ⟨calls, completed, rfl, hcompleted⟩ := h1
  exact .returns _flushInflight_run _flushInflight_run ⟨calls, completed, rfl, hcompleted⟩

/-- What an option leaves: alike when the packet was refused, the same else. -/
def AgreeNext (packetBuffer other : PacketBuffer B) (r : Progress) (d d' : PacketDecoder H B) : Prop :=
  match r with
  | .refused => Alike packetBuffer other d d'
  | _ => Same d d'

theorem refuse_agree (h : Same d d') :
    Call.Agree d d' (refuse cfg packetBuffer) (refuse (cfg.withHeap heap) other)
      (AgreeNext packetBuffer other) (Alike packetBuffer other) := by
  refine Call.Agree.bind (Q := fun _ => Alike packetBuffer other) ?_ fun _ _ _ h =>
    .returns rfl rfl h
  refine (_clearState_agree h).bind fun _ d1 d1' h1 => ?_
  obtain ⟨calls, completed, rfl, hcompleted⟩ := h1
  refine .bind_returns rfl rfl (.returns _flushInflight_run _flushInflight_run ?_)
  refine ⟨calls, completed, [], d1.available_buffer_pool.pool ++ (d1.inflight_buffers ++ [other]), rfl,
    hcompleted, .nil, ?_⟩
  exact List.rel_append (forall₂_stands _)
    (List.rel_append (forall₂_stands _) (.cons (Or.inr ⟨rfl, rfl⟩) .nil))

theorem decompress_agree (h : Same d d') (format : PacketHeaderOptionFormatType) (input : List UInt8)
    (output : PacketBuffer B) :
    Call.Agree d d' (decompress cfg packetBuffer format input output)
      (decompress (cfg.withHeap heap) other format input output) (fun _ => Same)
      (Alike packetBuffer other) := by
  have halike : Alike packetBuffer other d d' := h.alike
  obtain ⟨calls, completed, rfl, hcompleted⟩ := h
  refine .bind_get (.ite (fun _ => ?_) fun _ => ?_)
  · exact .bind_ofExcept (fun out _ => .bind_returns rfl rfl
      (.returns rfl rfl ⟨_, completed, rfl, hcompleted⟩)) halike
  · exact .bind_ofExcept (fun out _ => .bind_returns rfl rfl
      (.returns rfl rfl ⟨_, completed, rfl, hcompleted⟩)) halike

section Fields
variable (hfields : SameFields option option')
include hfields

theorem fillComplete_agree (h : Same d d')
    (hslice : other.slice pos option.payload_length = packetBuffer.slice pos option.payload_length) :
    Call.Agree d d' (fillComplete cfg packetBuffer option pos)
      (fillComplete (cfg.withHeap heap) other option' pos) (fun _ => Same)
      (Alike packetBuffer other) := by
  rw [hfields]
  unfold fillComplete
  rw [hslice]
  have halike : Alike packetBuffer other d d' := h.alike
  obtain ⟨calls, completed, rfl, hcompleted⟩ := h
  refine .bind_get (Call.Agree.bind_deref (fun tx _ => ?_) halike)
  refine .ite (fun _ => ?_) fun _ => ?_
  · refine (decompress_agree ⟨calls, completed, rfl, hcompleted⟩ _ _ tx).bind fun r d1 d1' h1 => ?_
    obtain ⟨calls1, completed1, rfl, hcompleted1⟩ := h1
    refine .bind_returns rfl rfl (.ite (fun _ => .returns rfl rfl ⟨_, _, rfl, hcompleted1⟩) fun _ => ?_)
    exact .bind_ofExcept (fun out _ => .bind_returns rfl rfl (.returns rfl rfl ⟨_, _, rfl, hcompleted1⟩))
      (Same.alike ⟨_, _, rfl, hcompleted1⟩)
  · exact .bind_ofExcept (fun out _ => .bind_returns rfl rfl (.returns rfl rfl ⟨_, _, rfl, hcompleted⟩))
      halike

theorem finishPartial_agree (h : Same d d') :
    Call.Agree d d' (finishPartial cfg packetBuffer option)
      (finishPartial (cfg.withHeap heap) other option') (fun _ => Same)
      (Alike packetBuffer other) := by
  rw [hfields]
  have halike : Alike packetBuffer other d d' := h.alike
  obtain ⟨calls, completed, rfl, hcompleted⟩ := h
  refine .ite (fun _ => ?_) fun _ => .returns rfl rfl ⟨calls, completed, rfl, hcompleted⟩
  refine .bind_get (Call.Agree.bind_deref (fun tx _ => ?_) halike)
  refine Call.Agree.bind_deref (fun dc _ => ?_) halike
  refine (decompress_agree ⟨calls, completed, rfl, hcompleted⟩ _ _ dc).bind fun r d1 d1' h1 => ?_
  obtain ⟨calls1, completed1, rfl, hcompleted1⟩ := h1
  refine .bind_returns rfl rfl (.ite (fun _ => .returns rfl rfl ⟨_, _, rfl, hcompleted1⟩) fun _ => ?_)
  exact .bind_ofExcept (fun out _ => .bind_returns rfl rfl (.returns rfl rfl ⟨_, _, rfl, hcompleted1⟩))
    (Same.alike ⟨_, _, rfl, hcompleted1⟩)

theorem deliver_agree (h : Same d d') (hsource : other.source = packetBuffer.source) :
    Call.Agree d d' (deliver packetBuffer option) (deliver other option') (fun _ => Same)
      (Alike packetBuffer other) := by
  have hsize : option'.packet_size = option.packet_size := by rw [hfields]
  unfold deliver
  rw [hsource, hsize]
  have halike : Alike packetBuffer other d d' := h.alike
  obtain ⟨calls, completed, rfl, hcompleted⟩ := h
  have hmore : List.Forall₂ SameFields (d.completedBy ++ [option]) (completed ++ [option']) :=
    List.rel_append hcompleted (.cons hfields .nil)
  refine .bind_get (Call.Agree.bind_deref (fun tx _ => ?_) halike)
  refine .ite (fun _ => .returns rfl rfl ⟨calls, completed, rfl, hcompleted⟩) fun _ => ?_
  exact .bind_ofExcept (fun out _ => .bind_returns rfl rfl (.returns rfl rfl ⟨_, _, rfl, hmore⟩)) halike

theorem deliverNext_agree (h : Same d d') (hsource : other.source = packetBuffer.source)
    (filled whole : Bool) (pos : Nat) :
    Call.Agree d d'
      (if !filled then refuse cfg packetBuffer
      else do
        if !(← deliver packetBuffer option) then refuse cfg packetBuffer
        else return .delivered whole pos)
      (if !filled then refuse (cfg.withHeap heap) other
      else do
        if !(← deliver other option') then refuse (cfg.withHeap heap) other
        else return .delivered whole pos)
      (AgreeNext packetBuffer other) (Alike packetBuffer other) := by
  refine .ite (fun _ => refuse_agree h) fun _ => ?_
  refine (deliver_agree hfields h hsource).bind fun sent d1 d1' h1 => ?_
  exact .ite (fun _ => refuse_agree h1) fun _ => .returns rfl rfl h1

theorem Same.begun (h : Same d d') : Same (d.begun cfg option)
    (d'.begun (cfg.withHeap heap) option') := by
  have htype : option'.type = option.type := by rw [hfields]
  obtain ⟨calls, completed, rfl, hcompleted⟩ := h
  unfold PacketDecoder.begun
  rw [htype]
  split
  · exact ⟨calls, completed, rfl, hcompleted⟩
  · exact ⟨calls, completed, rfl, hcompleted⟩

theorem completeOption_agree (h : Same d d') (hsize : other.dataSize = packetBuffer.dataSize)
    (hsource : other.source = packetBuffer.source) (hmtu : option.packet_size ≤ cfg.l2mtu)
    (htype : option.type = COMPLETE_PACKET) (htx : d.tx_buffer = some tx)
    (hpayload : PayloadRead cfg packetBuffer option pos d →
      other.slice (payloadPos pos) option.payload_length =
        packetBuffer.slice (payloadPos pos) option.payload_length) :
    Call.Agree d d' (completeOption cfg packetBuffer option pos)
      (completeOption (cfg.withHeap heap) other option' pos) (AgreeNext packetBuffer other)
      (Alike packetBuffer other) := by
  have htx' : d'.tx_buffer = some tx := by
    obtain ⟨calls, completed, rfl, -⟩ := h
    exact htx
  have htype' : option'.type = COMPLETE_PACKET := by rw [hfields, htype]
  have hbegun : Same (d.begun cfg option) (d'.begun (cfg.withHeap heap) option') := h.begun hfields
  have h0 := begun_last_part cfg (d := d) htype
  suffices h : Call.Agree (d.begun cfg option) (d'.begun (cfg.withHeap heap) option')
      (completeOption cfg packetBuffer option pos)
      (completeOption (cfg.withHeap heap) other option' pos) (AgreeNext packetBuffer other)
      (Alike packetBuffer other) by
    rw [Call.Agree, completeOption_run_begun htype htx, completeOption_run_begun htype' htx']
    exact h
  generalize d.begun cfg option = d1 at hbegun h0
  obtain ⟨calls, completed, hbegun, hcompleted⟩ := hbegun
  have hpart : option'.part = option.part := by rw [hfields]
  have hlength : option'.payload_length = option.payload_length := by rw [hfields]
  have hnext : nextPos option' pos = nextPos option pos := by rw [nextPos, nextPos, hlength]
  rw [hbegun]
  refine Call.Agree.bind_get ?_
  rw [if_neg (not_not.mpr h0), if_neg (not_not.mpr h0), hsize, hpart, hlength, hnext]
  refine .ite (fun _ => refuse_agree ⟨calls, completed, rfl, hcompleted⟩) fun hzero => ?_
  refine .ite (fun _ => refuse_agree ⟨calls, completed, rfl, hcompleted⟩) fun hfit => ?_
  have hread := hpayload ⟨⟨hmtu, fun _ => of_not_not hzero, Nat.le_of_not_lt hfit⟩, Or.inl htype,
    fun h => absurd htype h, fun h => absurd htype h⟩
  refine (fillComplete_agree hfields ⟨calls, completed, rfl, hcompleted⟩ hread).bind
    fun filled d2 d2' h2 => ?_
  exact deliverNext_agree hfields h2 hsource filled false _

theorem partialOption_agree (h : Same d d') (hsize : other.dataSize = packetBuffer.dataSize)
    (hsource : other.source = packetBuffer.source) (hmtu : option.packet_size ≤ cfg.l2mtu)
    (htype : option.type ≠ COMPLETE_PACKET) (hpart : option.typeIsPartial = true)
    (hpayload : PayloadRead cfg packetBuffer option pos d →
      other.slice (payloadPos pos) option.payload_length =
        packetBuffer.slice (payloadPos pos) option.payload_length) :
    Call.Agree d d' (partialOption cfg packetBuffer option pos)
      (partialOption (cfg.withHeap heap) other option' pos) (AgreeNext packetBuffer other)
      (Alike packetBuffer other) := by
  have halike : Alike packetBuffer other d d' := h.alike
  obtain ⟨calls, completed, rfl, hcompleted⟩ := h
  have hunusable : ∀ d1 : PacketDecoder H B, unusable d1 option' = unusable d1 option := by
    intro d1
    rw [hfields]
    rfl
  have hformat : option'.formatIsCompressed = option.formatIsCompressed := by
    rw [hfields]
    rfl
  have hcomplete : option'.typeIsComplete = option.typeIsComplete := by
    rw [hfields]
    rfl
  have hfield : option'.part = option.part ∧ option'.packet_size = option.packet_size ∧
      option'.format = option.format ∧ option'.payload_length = option.payload_length := by
    rw [hfields]
    exact ⟨rfl, rfl, rfl, rfl⟩
  obtain ⟨hpartField, hpacket, hformatField, hlength⟩ := hfield
  have hnext : nextPos option' pos = nextPos option pos := by rw [nextPos, nextPos, hlength]
  unfold partialOption
  rw [hsize, hpartField, hpacket, hformatField, hlength, hnext, hformat, hcomplete]
  refine Call.Agree.bind_get ?_
  rw [hunusable]
  refine .ite (fun _ => ?_) fun husable => ?_
  · exact (clearAndFlush_agree ⟨calls, completed, rfl, hcompleted⟩).bind fun _ _ _ h1 =>
      .returns rfl rfl h1
  refine .ite (fun _ => refuse_agree ⟨calls, completed, rfl, hcompleted⟩) fun hfit => ?_
  refine Call.Agree.bind_deref (fun tx htx => ?_) halike
  refine .ite (fun _ => refuse_agree ⟨calls, completed, rfl, hcompleted⟩) fun hroom => ?_
  refine .ite (fun _ => refuse_agree ⟨calls, completed, rfl, hcompleted⟩) fun hplain => ?_
  have hassembled : d.assembled.length = tx.dataSize := by
    rw [assembled, htx, Option.elim_some, PacketBuffer.data_length]
  have hslice : other.slice ((pos + PacketHeaderOption.size) % 65536) option.payload_length =
      packetBuffer.slice ((pos + PacketHeaderOption.size) % 65536) option.payload_length := by
    refine hpayload ⟨⟨hmtu, fun h => absurd h htype, Nat.le_of_not_lt hfit⟩,
      Or.inr ⟨hpart, Bool.eq_false_iff.mpr husable⟩, fun _ => ?_, fun _ hc => ?_⟩
    · rw [hassembled]
      rw [PacketBuffer.getBufferSize_eq] at hroom
      exact Nat.le_of_not_lt hroom
    · rw [hassembled]
      rw [hc] at hplain
      exact Nat.le_of_not_lt fun hlt => hplain ⟨rfl, hlt⟩
  rw [hslice]
  refine .bind_ofExcept (fun tx1 _ => .bind_returns rfl rfl (.ite (fun _ => ?_) fun _ => ?_)) halike
  · refine (finishPartial_agree hfields (by exact ⟨calls, completed, rfl, hcompleted⟩)).bind
      fun filled d1 d1' h1 => ?_
    exact deliverNext_agree hfields h1 hsource filled true _
  · exact .bind_returns rfl rfl (.returns rfl rfl ⟨calls, completed, rfl, hcompleted⟩)

end Fields

/-- **One option**, of which what is read is the same. -/
theorem takeOption_agree (h : Same d d') (hsize : other.dataSize = packetBuffer.dataSize)
    (hsource : other.source = packetBuffer.source) (htx : d.tx_buffer = some tx)
    (hoption : SameOption cfg (optionAt cfg packetBuffer pos) (optionAt (cfg.withHeap heap) other pos))
    (hpayload : PayloadRead cfg packetBuffer (optionAt cfg packetBuffer pos) pos d →
      other.slice (payloadPos pos) (optionAt cfg packetBuffer pos).payload_length =
        packetBuffer.slice (payloadPos pos) (optionAt cfg packetBuffer pos).payload_length) :
    Call.Agree d d' (takeOption cfg packetBuffer pos flag)
      (takeOption (cfg.withHeap heap) other pos flag) (AgreeNext packetBuffer other)
      (Alike packetBuffer other) := by
  unfold takeOption
  generalize optionAt cfg packetBuffer pos = option at hoption hpayload
  generalize optionAt (cfg.withHeap heap) other pos = option' at hoption
  dsimp only
  rw [hoption.packet_size]
  refine .ite (fun _ => refuse_agree h) fun hmtu => ?_
  have hmtu := Nat.le_of_not_lt hmtu
  rw [hoption.type hmtu]
  have hpart : option'.typeIsPartial = option.typeIsPartial := by
    rw [PacketHeaderOption.typeIsPartial, PacketHeaderOption.typeIsPartial, hoption.type hmtu]
  rw [hpart]
  refine .ite (fun htype => ?_) fun htype => .ite (fun hpart => ?_) fun _ => .returns rfl rfl h
  · have hfields := hoption.fields ⟨hmtu, Or.inl htype⟩
    exact completeOption_agree hfields h hsize hsource hmtu htype htx hpayload
  · have hfields := hoption.fields ⟨hmtu, Or.inr hpart⟩
    exact partialOption_agree hfields h hsize hsource hmtu htype hpart hpayload

theorem refill_agree (h : Same d d') (whole : Bool) :
    Call.Agree d d' (refill cfg whole) (refill (cfg.withHeap heap) whole) (fun _ => Same)
      (Alike packetBuffer other) := by
  have halike : Alike packetBuffer other d d' := h.alike
  have hget : Call.Agree d d' _getTxBuffer _getTxBuffer (fun _ => Same)
      (Alike packetBuffer other) := by
    obtain ⟨calls, completed, rfl, hcompleted⟩ := h
    refine .bind_get (.bind_ofExcept (fun r _ => ?_) halike)
    exact .bind_returns rfl rfl (_clearState_agree ⟨calls, completed, rfl, hcompleted⟩)
  refine hget.bind fun _ d1 d1' h1 => .ite (fun _ => ?_) fun _ => .returns rfl rfl h1
  obtain ⟨calls, completed, rfl, hcompleted⟩ := h1
  exact .returns _flushInflight_run _flushInflight_run ⟨calls, completed, rfl, hcompleted⟩

/-- **The body of the loop**, at a position that `decode` comes to. -/
theorem decodeOption_agree {d0 : PacketDecoder H B} (hsame : SameWhereRead cfg heap d0 packetBuffer other)
    (hreach : Reaches cfg packetBuffer d0 pos flag d) (hpos : pos < packetBuffer.dataSize)
    (h : Same d d') (htx : d.tx_buffer = some tx) :
    Call.Agree d d' (decodeOption cfg packetBuffer pos flag)
      (decodeOption (cfg.withHeap heap) other pos flag)
      (fun r s t => if r.isSome then Same s t else Alike packetBuffer other s t)
      (Alike packetBuffer other) := by
  have hoption := SameOption.of_bytes fun i hi => hsame.bytes _ (.option hreach hpos hi)
  have hpayload : PayloadRead cfg packetBuffer (optionAt cfg packetBuffer pos) pos d →
      other.slice (payloadPos pos) (optionAt cfg packetBuffer pos).payload_length =
        packetBuffer.slice (payloadPos pos) (optionAt cfg packetBuffer pos).payload_length :=
    fun hread => slice_eq_of_bytes hsame.dataSize hread.fits fun i hi =>
      hsame.bytes _ (.payload hreach hpos hread hi)
  refine (takeOption_agree h hsame.dataSize hsame.source htx hoption hpayload).bind fun r d1 d1' h1 => ?_
  cases r with
  | refused => exact .returns rfl rfl h1
  | onto => exact .returns rfl rfl h1
  | delivered whole pos =>
    exact (refill_agree h1 whole).bind fun _ d2 d2' h2 => .returns rfl rfl h2

/-! ## A whole call -/

/-- **The loop**, by induction on the iterations left. -/
theorem optionLoop_agree {d0 : PacketDecoder H B} (hd0 : Sized cfg d0) (hlibs : LibsBounded cfg B)
    (hsame : SameWhereRead cfg heap d0 packetBuffer other) (fuel : Nat) (h : Same d d')
    (hreach : Reaches cfg packetBuffer d0 pos flag d) :
    Call.Agree d d' (optionLoop cfg packetBuffer fuel pos flag)
      (optionLoop (cfg.withHeap heap) other fuel pos flag)
      (fun r s t => if r.isSome then Same s t else Alike packetBuffer other s t)
      (Alike packetBuffer other) := by
  induction fuel generalizing pos flag d d' with
  | zero =>
    unfold optionLoop
    rw [hsame.dataSize]
    exact .ite (fun _ => ⟨rfl, h.alike⟩) fun _ => .returns rfl rfl h
  | succ fuel ih =>
    unfold optionLoop
    rw [hsame.dataSize]
    refine .ite (fun hpos => ?_) fun _ => .returns rfl rfl h
    obtain ⟨tx, htx, -⟩ := (hreach.sized hlibs hd0).tx_buffer
    refine (decodeOption_agree hsame hreach hpos h htx).bind_run fun r d1 d1' hrun h1 => ?_
    cases r with
    | none => exact .returns rfl rfl h1
    | some next => exact ih h1 (hreach.next hpos hrun)

theorem finish_agree (h : Same d d') (flag : Bool) :
    Call.Agree d d' (finish cfg packetBuffer flag) (finish (cfg.withHeap heap) other flag)
      (fun _ => Alike packetBuffer other) (Alike packetBuffer other) := by
  obtain ⟨calls, completed, rfl, hcompleted⟩ := h
  have hinflight : List.Forall₂ (Stands packetBuffer other) (d.inflight_buffers ++ [packetBuffer])
      (d.inflight_buffers ++ [other]) :=
    List.rel_append (forall₂_stands _) (.cons (Or.inr ⟨rfl, rfl⟩) .nil)
  refine .returns (finish_run flag) (finish_run flag) ?_
  cases flag with
  | true =>
    exact ⟨calls, completed, [], _, rfl, hcompleted, .nil, List.rel_append (forall₂_stands _) hinflight⟩
  | false => exact ⟨calls, completed, _, _, rfl, hcompleted, hinflight, forall₂_stands _⟩

/-- **The header.** -/
theorem decodeHeader_agree (htx : d.tx_buffer = some tx)
    (hsame : SameWhereRead cfg heap d packetBuffer other) :
    Call.Agree d d (decodeHeader cfg packetBuffer) (decodeHeader (cfg.withHeap heap) other)
      (fun r s t => if r.isSome then Same s t else Alike packetBuffer other s t)
      (Alike packetBuffer other) := by
  by_cases hshort : packetBuffer.dataSize < PacketHeader.size
  · refine .returns (decodeHeader_short htx hshort) (decodeHeader_short htx (hsame.dataSize ▸ hshort))
      ⟨_, _, _, _, rfl, List.forall₂_same.mpr fun _ _ => rfl, forall₂_stands _, ?_⟩
    exact List.rel_append (forall₂_stands _) (.cons (Or.inr ⟨rfl, rfl⟩) .nil)
  have hlong := Nat.le_of_not_lt hshort
  have hlong' : PacketHeader.size ≤ other.dataSize := hsame.dataSize ▸ hlong
  have hheader := hsame.headerOf_eq hlong
  by_cases hvalid : HeaderValid (headerOf cfg packetBuffer)
  · have hfirst := hsame.firstOptionValid_iff hlong hvalid
    have hvalid' := hvalid
    rw [← hheader] at hvalid'
    by_cases hpass : FirstOptionValid cfg packetBuffer
    · exact .returns (decodeHeader_passed htx hlong hvalid hpass)
        (hheader ▸ decodeHeader_passed htx hlong' hvalid' (hfirst.mpr hpass)) (Same.refl _)
    · exact .returns (decodeHeader_first_invalid htx hlong hvalid hpass)
        (hheader ▸ decodeHeader_first_invalid htx hlong' hvalid' (mt hfirst.mp hpass)) (Same.refl _).refusing
  · have hvalid' := hvalid
    rw [← hheader] at hvalid'
    exact .returns (decodeHeader_invalid htx hlong hvalid) (decodeHeader_invalid htx hlong' hvalid')
      (Same.refl _).refusing

/-- **`decode` looks at nothing else**: a buffer with the same bytes where the datagram is read is decoded
alike. -/
theorem decode_agree (h : Sized cfg d) (hlibs : LibsBounded cfg B)
    (hsame : SameWhereRead cfg heap d packetBuffer other) (fuel : Nat) :
    Call.Agree d d (decode cfg fuel packetBuffer) (decode (cfg.withHeap heap) fuel other)
      (fun _ => Alike packetBuffer other) (Alike packetBuffer other) := by
  obtain ⟨tx, htx, -⟩ := h.tx_buffer
  refine (decodeHeader_agree htx hsame).bind_run fun r d1 d1' hrun h1 => ?_
  cases r with
  | none => exact .returns rfl rfl h1
  | some pos =>
    refine (optionLoop_agree h hlibs hsame fuel h1 (.first hrun)).bind fun r d2 d2' h2 => ?_
    cases r with
    | none => exact .returns rfl rfl h2
    | some flag => exact finish_agree h2 flag

/-! ## When all that is read is inside the data -/

/-- What is read of an option lies in its first six bytes, or seven if it is handled. -/
theorem HeaderRead.lt {i : Nat} (h : HeaderRead cfg option i) : i < 6 ∨ Handled cfg option ∧ i < 7 := by
  cases h with
  | packet_size h => exact Or.inl (by omega)
  | payload_length h => exact Or.inl (by omega)
  | type => exact Or.inl (by decide)
  | part h => exact Or.inr ⟨h, by decide⟩
  | format h => exact Or.inl (by decide)

theorem inspected_lt (hleft : ∀ pos flag d1, Reaches cfg packetBuffer d pos flag d1 →
      pos < packetBuffer.dataSize → pos + 6 ≤ packetBuffer.dataSize ∧
        (Handled cfg (optionAt cfg packetBuffer pos) → pos + 7 ≤ packetBuffer.dataSize))
    {offset : Nat} (h : Inspects cfg d packetBuffer offset) : offset < packetBuffer.dataSize := by
  cases h with
  | header long field => exact field.trans_le long
  | first long valid opt_len room field =>
    simp only [PacketHeaderOption.size] at room
    omega
  | option reaches more field =>
    obtain ⟨hsix, hseven⟩ := hleft _ _ _ reaches more
    rcases field.lt with hlt | ⟨hhandled, hlt⟩
    · omega
    · have := hseven hhandled
      omega
  | payload reaches more read within =>
    exact (Nat.add_lt_add_left within _).trans_le read.fits

/-- **Nothing past the data is read** exactly when of every option that `decode` comes to at least six bytes
are left, and seven if the option is handled. -/
theorem readsWithin_iff (hlibs : LibsBounded cfg B) {available pkts : List (PacketBuffer B)}
    {d0 : PacketDecoder H B} (hstart : Starts cfg available d0)
    (hrun : StepPath (Decodes cfg) d0 pkts d) (packetBuffer : PacketBuffer B) :
    ReadsWithin cfg d packetBuffer ↔ ∀ pos flag d1, Reaches cfg packetBuffer d pos flag d1 →
      pos < packetBuffer.dataSize → pos + 6 ≤ packetBuffer.dataSize ∧
        (Handled cfg (optionAt cfg packetBuffer pos) → pos + 7 ≤ packetBuffer.dataSize) := by
  have h : Sized cfg d :=
    hrun.invariant (fun _ _ _ h hd => hd.of_meets (decode_sized hlibs) h) hstart.sized
  constructor
  · intro hwithin pos flag d1 hreach hpos
    -- the last byte of `payload_length`, and the part
    have hfive := hwithin.inspected _ (.option hreach hpos (.payload_length (Or.inr rfl)))
    refine ⟨hfive, fun hhandled => ?_⟩
    exact hwithin.inspected _ (.option hreach hpos (.part hhandled))
  · intro hleft
    refine ⟨fun _ => inspected_lt hleft, ?_, fun heap other fuel hdata hsource => ?_⟩
    · intro pos flag d1 r d2 hreach _ htake hacted
      obtain ⟨hpasses, hused⟩ := (hreach.sized hlibs h).acted hlibs htake hacted
      exact hpasses.fits hused
    · exact decode_agree h hlibs (.of_data hdata hsource fun _ => inspected_lt hleft) fuel

/-- A frame of four bytes. -/
theorem readsWithin_iff_single :
    let cfg := (Tunnel.smallestLZ4 (.inet 58023 #v[192, 0, 2, 1])).decoder fun _ => 0
    let datagram : PacketBuffer 1344 := .ofData 20 ((PacketEncoder.header 1 1).bytes .little ++
      (PacketHeaderOption.mk COMPLETE_PACKET 4 NONE 4 0 0).bytes ++ [10, 20, 30, 40]) (by decide)
    ∃ d0 : PacketDecoder (List (List UInt8)) 1344, Starts cfg (PacketBuffer.fresh 0 10) d0 ∧
      (ReadsWithin cfg d0 datagram ↔ ∀ pos flag d1, Reaches cfg datagram d0 pos flag d1 →
        pos < datagram.dataSize → pos + 6 ≤ datagram.dataSize ∧
          (Handled cfg (optionAt cfg datagram pos) → pos + 7 ≤ datagram.dataSize)) := by
  intro cfg datagram
  obtain ⟨⟨⟩, d, hrun, -⟩ := Call.exists_of_okAnd (p := fun _ => true)
    (r := (Tunnel.smallestLZ4 (.inet 58023 #v[192, 0, 2, 1])).decoderRun (fun _ => 0) 10
      (PacketBuffer.fresh 0 10) []) (by decide +kernel)
  obtain ⟨d0, hstart, -⟩ := path_of_decoderRun hrun
  exact ⟨d0, hstart, readsWithin_iff ⟨StreamCompressor.literals_decompressBounded _,
    StreamCompressor.literals_decompressBounded _⟩ hstart (.nil d0) datagram⟩

/-- A frame whose payload looks like an option, and one byte behind it: the type of an option whose
other fields are past the data. -/
def trailingByte : List UInt8 :=
  (PacketEncoder.header 1 1).bytes .little ++
    (PacketHeaderOption.mk COMPLETE_PACKET 12 NONE 12 0 0).bytes ++
    ((PacketHeaderOption.mk COMPLETE_PACKET 5 NONE 5 0 0).bytes ++ [10, 20, 30, 40]) ++
    [PARTIAL_PACKET]

/-- **Old bytes behind the data** decide what is delivered: in the second buffer they say a length with
which the position wraps into the payload of the first frame. -/
theorem stale_bytes_delivered :
    let cfg := (Tunnel.smallestLZ4 (.inet 58023 #v[192, 0, 2, 1])).decoder fun _ => 0
    let datagram : PacketBuffer 1344 := .ofData 20 trailingByte (by decide)
    let stale : List UInt8 := ((PacketHeaderOption.mk PARTIAL_PACKET 0 NONE 65516 2 0).bytes).drop 1
    let other : PacketBuffer 1344 := { PacketBuffer.ofData 20 (trailingByte ++ stale) (by decide) with
      dataSize := trailingByte.length
      dataSize_le := by decide }
    ∃ d0 d d' : PacketDecoder (List (List UInt8)) 1344, Starts cfg (PacketBuffer.fresh 0 10) d0 ∧
      other.data = datagram.data ∧ other.source = datagram.source ∧
      Decodes cfg d0 datagram d ∧ Decodes cfg d0 other d' ∧
      d.tx_buffer_pool.pool.length = 1 ∧ d'.tx_buffer_pool.pool.length = 2 ∧
      ¬ReadsWithin cfg d0 datagram := by
  intro cfg datagram stale other
  obtain ⟨⟨⟩, d, hrun, hone⟩ := Call.exists_of_okAnd (p := fun d => d.tx_buffer_pool.pool.length == 1)
    (r := (Tunnel.smallestLZ4 (.inet 58023 #v[192, 0, 2, 1])).decoderRun (fun _ => 0) 10
      (PacketBuffer.fresh 0 10) [datagram]) (by decide +kernel)
  obtain ⟨⟨⟩, d', hrun', htwo⟩ := Call.exists_of_okAnd
    (p := fun d => d.tx_buffer_pool.pool.length == 2)
    (r := (Tunnel.smallestLZ4 (.inet 58023 #v[192, 0, 2, 1])).decoderRun (fun _ => 0) 10
      (PacketBuffer.fresh 0 10) [other]) (by decide +kernel)
  obtain ⟨d0, hstart, hdecode⟩ := decode_of_decoderRun hrun
  obtain ⟨d0', hstart', hdecode'⟩ := decode_of_decoderRun hrun'
  obtain ⟨-, rfl⟩ := EStateM.Result.ok.inj (hstart.symm.trans hstart')
  have hdata : other.data = datagram.data := by decide +kernel
  refine ⟨d0, d, d', hstart, hdata, rfl, ⟨10, hdecode⟩, ⟨10, hdecode'⟩, beq_iff_eq.mp hone,
    beq_iff_eq.mp htwo, fun hwithin => ?_⟩
  obtain ⟨-, calls, completed, inflight, available, halike, -⟩ :=
    (hwithin.stale (fun _ => 0) other 10 hdata rfl).ok hdecode hdecode'
  have hsame : d'.tx_buffer_pool = d.tx_buffer_pool := by rw [halike]
  have htwo := beq_iff_eq.mp htwo
  rw [hsame, beq_iff_eq.mp hone] at htwo
  exact absurd htwo (by decide)

end PacketDecoder
end SuperEthd
