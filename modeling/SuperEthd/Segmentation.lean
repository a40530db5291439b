import SuperEthd.Lib.Path
import SuperEthd.RemoteNode

/-! # The stream of datagrams

What the datagrams of a tunnel carry, without buffers and counters.  A frame is carried whole
in one record or in parts, each part in a datagram of its own.  A `Cursor` is a place in the
stream; `Follows` says which record may stand at it, `Emits` which datagram, and a path of
`Sends` is a stream with its sequence numbers.  The encoder is proved to emit such streams,
and the decoder to take them apart. -/
namespace SuperEthd
open PacketHeaderOptionType PacketHeaderOptionFormatType

variable {H : Type}

/-- An accepted frame, its number, and how it was encoded: `bytes` is what the datagrams carry of
it; `before` and `after` are the histories of the compression stream around it. -/
structure EncodedFrame (H : Type) where
  index : Nat
  frame : List UInt8
  format : PacketHeaderOptionFormatType
  bytes : List UInt8
  before : H
  after : H

/-- The encoding is one the tunnel's encoder makes: plain, or compressed in its format. -/
structure EncodedFrame.Valid (T : Tunnel H) (f : EncodedFrame H) : Prop where
  frame_le : f.frame.length ≤ T.l2mtu
  bytes_le : f.bytes.length ≤ T.B
  encoded : f.format = NONE ∧ f.bytes = f.frame ∧ f.after = f.before ∨
    T.packet_format ≠ NONE ∧ f.format = T.packet_format ∧
      0 < (T.lib.compress f.before f.frame T.B).result ∧
      f.bytes = (T.lib.compress f.before f.frame T.B).output ∧
      f.after = (T.lib.compress f.before f.frame T.B).history

/-- A frame that is carried as it is, under a history that it leaves alone. -/
def EncodedFrame.plain (index : Nat) (frame : List UInt8) (history : H) : EncodedFrame H :=
  ⟨index, frame, NONE, frame, history, history⟩

theorem EncodedFrame.plain_valid {T : Tunnel H} {frame : List UInt8} (index : Nat) (history : H)
    (h : frame.length ≤ T.l2mtu) : (plain index frame history).Valid T :=
  ⟨h, h.trans T.size_bounds.2.2.1, Or.inl ⟨rfl, rfl, rfl⟩⟩

/-- A record of a datagram: `length` bytes of a frame's encoding, from `offset` on.  Parts count
from 1; `part` 0 is for a frame that is whole. -/
structure Record (H : Type) where
  of : EncodedFrame H
  part : Nat
  offset : Nat
  length : Nat
  fits : offset + length ≤ of.bytes.length

namespace Record

/-- The record of a whole frame. -/
def whole (f : EncodedFrame H) : Record H := ⟨f, 0, 0, f.bytes.length, by omega⟩

variable (r : Record H)

/-- The bytes it carries. -/
def payload : List UInt8 := (r.of.bytes.drop r.offset).take r.length

/-- It carries the end of its frame. -/
def finishes : Bool := r.offset + r.length == r.of.bytes.length

/-- Its option header. -/
def option : PacketHeaderOption where
  type :=
    if r.part = 0 then COMPLETE_PACKET
    else if r.finishes then PARTIAL_PACKET ||| COMPLETE_PACKET
    else PARTIAL_PACKET
  packet_size := r.of.frame.length
  format := r.of.format
  payload_length := r.length
  part := UInt8.ofNat r.part
  reserved := 0

/-- The record on the wire. -/
def bytes : List UInt8 := r.option.bytes ++ r.payload

/-- Its size on the wire. -/
def size : Nat := PacketHeaderOption.size + r.length

@[simp] theorem payload_length : r.payload.length = r.length := by
  have h := r.fits
  rw [payload, List.length_take, List.length_drop]
  omega

@[simp] theorem bytes_length : r.bytes.length = r.size := by
  rw [bytes, List.length_append, PacketHeaderOption.bytes_length, payload_length, size]

@[simp] theorem payload_whole (f : EncodedFrame H) : (whole f).payload = f.bytes :=
  List.take_length

@[simp] theorem finishes_whole (f : EncodedFrame H) : (whole f).finishes = true := by
  simp [finishes, whole]

end Record

/-- The size on the wire of records one behind the other. -/
def sizeOfRecords (rs : List (Record H)) : Nat := (rs.map Record.size).sum

/-- The frames that end in the records. -/
def finished (rs : List (Record H)) : List (EncodedFrame H) := (rs.filter Record.finishes).map Record.of

@[simp] theorem sizeOfRecords_nil : sizeOfRecords ([] : List (Record H)) = 0 := rfl

@[simp] theorem sizeOfRecords_cons (r : Record H) (rs : List (Record H)) :
    sizeOfRecords (r :: rs) = r.size + sizeOfRecords rs := rfl

@[simp] theorem sizeOfRecords_append (rs rs' : List (Record H)) :
    sizeOfRecords (rs ++ rs') = sizeOfRecords rs + sizeOfRecords rs' := by
  simp [sizeOfRecords]

theorem sizeOfRecords_eq_length (rs : List (Record H)) :
    (rs.flatMap Record.bytes).length = sizeOfRecords rs := by
  simp [List.length_flatMap, sizeOfRecords]

/-- Every record takes at least the size of its option header. -/
theorem length_le_sizeOfRecords (rs : List (Record H)) :
    PacketHeaderOption.size * rs.length ≤ sizeOfRecords rs := by
  induction rs with
  | nil => exact Nat.zero_le _
  | cons r rs ih =>
    rw [List.length_cons, sizeOfRecords_cons, Record.size, Nat.mul_succ]
    omega

@[simp] theorem finished_nil : finished ([] : List (Record H)) = [] := rfl

@[simp] theorem finished_append (rs rs' : List (Record H)) :
    finished (rs ++ rs') = finished rs ++ finished rs' := by
  simp [finished]

theorem finished_cons_of_finishes {r : Record H} (rs : List (Record H)) (h : r.finishes = true) :
    finished (r :: rs) = r.of :: finished rs := by
  simp [finished, h]

theorem finished_cons_of_not {r : Record H} (rs : List (Record H)) (h : r.finishes = false) :
    finished (r :: rs) = finished rs := by
  simp [finished, h]

/-! ## Which records follow each other -/

/-- A place in the stream. -/
inductive Cursor (H : Type)
  /-- between two frames: the number of the next one, and the history it is compressed under -/
  | between (index : Nat) (history : H)
  /-- behind a part that fills its datagram: the part and what the parts carried so far -/
  | full (f : EncodedFrame H) (part offset : Nat)
  /-- at the start of a datagram that goes on with the frame -/
  | inside (f : EncodedFrame H) (part offset : Nat)

namespace Cursor

/-- The number of frames that end before it. -/
def index : Cursor H → Nat
  | between n _ => n
  | full f _ _ | inside f _ _ => f.index

/-- Where the next datagram starts.  The compression stream is reset with every datagram, except
within a frame. -/
def cut (T : Tunnel H) : Cursor H → Cursor H
  | between n _ => between n T.lib.reset
  | full f k off | inside f k off => inside f k off

@[simp] theorem index_cut (T : Tunnel H) (c : Cursor H) : (c.cut T).index = c.index := by
  cases c <;> rfl

@[simp] theorem cut_cut (T : Tunnel H) (c : Cursor H) : (c.cut T).cut T = c.cut T := by
  cases c <;> rfl

end Cursor

variable (T : Tunnel H)

/-- **The record may stand at the cursor**, and leads to the next one. -/
inductive Follows : Cursor H → Record H → Cursor H → Prop
  | whole {f : EncodedFrame H} : f.Valid T →
      Follows (.between f.index f.before) (.whole f) (.between (f.index + 1) f.after)
  | first {f : EncodedFrame H} {len : Nat} (fits : 0 + len ≤ f.bytes.length) : f.Valid T → 0 < len →
      len < f.bytes.length → Follows (.between f.index f.before) ⟨f, 1, 0, len, fits⟩ (.full f 1 len)
  | next {f : EncodedFrame H} {k off len : Nat} (fits : off + len ≤ f.bytes.length) : f.Valid T →
      0 < k → k < 255 → 0 < len → off + len < f.bytes.length →
      Follows (.inside f k off) ⟨f, k + 1, off, len, fits⟩ (.full f (k + 1) (off + len))
  | last {f : EncodedFrame H} {k off len : Nat} (fits : off + len ≤ f.bytes.length) : f.Valid T →
      0 < k → k < 255 → 0 < len → off + len = f.bytes.length →
      Follows (.inside f k off) ⟨f, k + 1, off, len, fits⟩ (.between (f.index + 1) T.lib.reset)

variable {T} {c c' : Cursor H} {r : Record H} {rs : List (Record H)}

namespace Follows

theorem valid (h : Follows T c r c') : r.of.Valid T := by
  cases h <;> assumption

/-- A record that ends its frame ends the one whose turn it is. -/
theorem index_eq (h : Follows T c r c') :
    r.of.index = c.index ∧ c'.index = c.index + (finished [r]).length := by
  cases h with
  | whole hf =>
    rw [finished_cons_of_finishes _ (Record.finishes_whole _)]
    exact ⟨rfl, rfl⟩
  | first fits hf h0 h1 =>
    rw [finished_cons_of_not _ (by simp [Record.finishes]; omega)]
    exact ⟨rfl, rfl⟩
  | next fits hf hk hk' h0 h1 =>
    rw [finished_cons_of_not _ (by simp [Record.finishes]; omega)]
    exact ⟨rfl, rfl⟩
  | last fits hf hk hk' h0 h1 =>
    rw [finished_cons_of_finishes _ (by simp [Record.finishes]; omega)]
    exact ⟨rfl, rfl⟩

end Follows

/-- **The frames that end in the records of a path are numbered one after the other.** -/
theorem finished_index (h : StepPath (Follows T) c rs c') :
    (finished rs).map EncodedFrame.index = List.range' c.index (finished rs).length ∧
      c'.index = c.index + (finished rs).length := by
  induction h with
  | nil => exact ⟨rfl, rfl⟩
  | @cons c c1 c' r rs h _ ih =>
    obtain ⟨h1, h2⟩ := h.index_eq
    obtain ⟨ih1, ih2⟩ := ih
    cases hr : r.finishes with
    | true =>
      rw [finished_cons_of_finishes _ hr] at h2 ⊢
      rw [List.map_cons, List.length_cons, List.range'_succ, ih1, h1, h2]
      refine ⟨rfl, ?_⟩
      rw [ih2, h2]
      simp only [finished_nil, List.length_cons, List.length_nil]
      omega
    | false =>
      rw [finished_cons_of_not _ hr] at h2 ⊢
      rw [ih1, ih2, h2]
      exact ⟨rfl, rfl⟩

/-! ## Datagrams -/

/-- A datagram: its sequence number and its records. -/
structure Datagram (H : Type) where
  sequence : UInt32
  records : List (Record H)

namespace Datagram

/-- The datagram on the wire. -/
def bytes (host : ByteOrder) (d : Datagram H) : List UInt8 :=
  (PacketEncoder.header d.sequence 1).bytes host ++ d.records.flatMap Record.bytes

/-- Its size on the wire. -/
def size (d : Datagram H) : Nat := PacketHeader.size + sizeOfRecords d.records

@[simp] theorem bytes_length (host : ByteOrder) (d : Datagram H) : (d.bytes host).length = d.size := by
  rw [bytes, List.length_append, PacketHeader.bytes_length, sizeOfRecords_eq_length, size]

/-- It has a record of the frame numbered `j`. -/
def Carries (d : Datagram H) (j : Nat) : Prop := ∃ r ∈ d.records, r.of.index = j

end Datagram

variable (T)

/-- **A datagram that may start at the cursor**, and where the next one starts: it has a record,
its records follow each other, it is no larger than `l4mtu`, and it is that large when its last
record does not end its frame. -/
structure Emits (c : Cursor H) (d : Datagram H) (c' : Cursor H) : Prop where
  path : ∃ c1, StepPath (Follows T) c d.records c1 ∧ c' = c1.cut T ∧
    ∀ f k off, c1 = .full f k off → d.size = T.l4mtu
  nonempty : d.records ≠ []
  size_le : d.size ≤ T.l4mtu

/-- A datagram sent with the next sequence number, over cursors and the encoder's counter. -/
structure Sends (s : Cursor H × UInt32) (d : Datagram H) (s' : Cursor H × UInt32) : Prop where
  emits : Emits T s.1 d s'.1
  sequence : d.sequence = PacketEncoder.nextSequence s.2
  counter : s'.2 = d.sequence + 1

end SuperEthd
