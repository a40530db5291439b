import SuperEthd.Address
import Mathlib.Data.List.Basic

/-! # Packet buffers

`accl::Buffer` and `PacketBuffer`: a block of storage of fixed size `B`, the first
`dataSize` bytes of which are data; the rest is whatever an earlier use left there.
The buffers of one pool all have one size, so `B` is a parameter of the type, and the
class invariant (`dataSize` never exceeds the storage) is a field. -/
namespace SuperEthd

/-- Why a call did not return. -/
inductive Stop
  /-- `pop_wait` found the pool empty and waits -/
  | blocked
  /-- `std::out_of_range` was thrown by `Buffer::append` or `Buffer::setDataSize` -/
  | outOfRange
  /-- `std::invalid_argument` was thrown by `BufferPool::push` -/
  | invalidArgument
  /-- `std::runtime_error` was thrown by `setPacketFormat` -/
  | unknownFormat
  /-- a null pointer was dereferenced -/
  | nullPointer
  /-- a raw pointer wrote past the storage of a buffer -/
  | overrun
  /-- the call is still in its loop after the given number of iterations -/
  | running
  deriving DecidableEq

/-- The call waits for a buffer. -/
def waits {σ α : Type} : EStateM.Result Stop σ α → Bool
  | .error .blocked _ => true
  | _ => false

/-- A `PacketBuffer` of `B` bytes.  `id` is its address: moving the `unique_ptr` that owns
the buffer keeps it, and no operation changes it. -/
structure PacketBuffer (B : Nat) where
  id : Nat
  content : List UInt8
  dataSize : Nat
  source : SockaddrStorage
  content_length : content.length = B
  dataSize_le : dataSize ≤ B
  deriving DecidableEq

/-- `bytes` written over `l` from position `pos` on. -/
def overlay (l : List UInt8) (pos : Nat) (bytes : List UInt8) : List UInt8 :=
  l.take pos ++ bytes ++ l.drop (pos + bytes.length)

theorem overlay_length {l bytes : List UInt8} {pos : Nat} (h : pos + bytes.length ≤ l.length) :
    (overlay l pos bytes).length = l.length := by
  simp only [overlay, List.length_append, List.length_take, List.length_drop]
  omega

/-- What lies before the written bytes is unchanged, and they end the prefix. -/
theorem take_overlay (l : List UInt8) (pos : Nat) (bytes : List UInt8)
    (h : pos + bytes.length ≤ l.length) :
    (overlay l pos bytes).take (pos + bytes.length) = l.take pos ++ bytes := by
  have hlen : (l.take pos ++ bytes).length = pos + bytes.length := by
    simp only [List.length_append, List.length_take]
    omega
  rw [overlay, ← hlen, List.take_left]

/-- A prefix that holds the written bytes is itself written over. -/
theorem take_overlay_of_le {l bytes : List UInt8} {pos n : Nat} (h : pos + bytes.length ≤ n)
    (hn : n ≤ l.length) : (overlay l pos bytes).take n = overlay (l.take n) pos bytes := by
  simp only [overlay, List.take_append, List.length_append, List.length_take, List.take_take,
    List.drop_take]
  rw [List.take_of_length_le (l := bytes) (by omega)]
  congr 2
  · congr 1
    omega
  · omega

theorem overlay_append (pre old post bytes : List UInt8) (h : old.length = bytes.length) :
    overlay (pre ++ old ++ post) pre.length bytes = pre ++ bytes ++ post := by
  rw [overlay, ← h, ← List.length_append, List.drop_left, List.append_assoc pre old post,
    List.take_left]

namespace PacketBuffer
variable {B : Nat}

/-- The data held: the first `dataSize` bytes of the storage. -/
def data (b : PacketBuffer B) : List UInt8 := b.content.take b.dataSize

/-- `Buffer::getBufferSize`. -/
def getBufferSize (b : PacketBuffer B) : Nat := b.content.length

/-- `Buffer::clear`. -/
def clear (b : PacketBuffer B) : PacketBuffer B :=
  { b with dataSize := 0, dataSize_le := Nat.zero_le B }

/-- Bytes stored through `getData() + pos`, where the storage has room for them. -/
def poke (b : PacketBuffer B) (pos : Nat) (bytes : List UInt8) (h : pos + bytes.length ≤ B) :
    PacketBuffer B :=
  { b with
    content := overlay b.content pos bytes
    content_length := (overlay_length (b.content_length.symm ▸ h)).trans b.content_length }

/-- A write through the raw pointer `getData() + pos`. -/
def writeAt (b : PacketBuffer B) (pos : Nat) (bytes : List UInt8) : Except Stop (PacketBuffer B) :=
  if h : pos + bytes.length ≤ B then .ok (b.poke pos bytes h) else .error .overrun

/-- `Buffer::setDataSize`. -/
def setDataSize (b : PacketBuffer B) (size : Nat) : Except Stop (PacketBuffer B) :=
  if h : size ≤ B then .ok { b with dataSize := size, dataSize_le := h } else .error .outOfRange

/-- `Buffer::append`. -/
def append (b : PacketBuffer B) (bytes : List UInt8) : Except Stop (PacketBuffer B) :=
  if h : bytes.length > B - b.dataSize then .error .outOfRange
  else .ok
    { b.poke b.dataSize bytes (by have := b.dataSize_le; omega) with
      dataSize := b.dataSize + bytes.length
      dataSize_le := by have := b.dataSize_le; omega }

/-- The `length` bytes from `getData() + pos` on, as `append` and the compressors read them. -/
def slice (b : PacketBuffer B) (pos length : Nat) : List UInt8 := (b.content.drop pos).take length

/-- A buffer that holds `data`; the rest of its storage is zero. -/
def ofData (id : Nat) (data : List UInt8) (h : data.length ≤ B) : PacketBuffer B where
  id := id
  content := data ++ List.replicate (B - data.length) 0
  dataSize := data.length
  source := .other 0
  content_length := by
    rw [List.length_append, List.length_replicate]
    omega
  dataSize_le := h

/-- `count` empty buffers, as the constructor of a `BufferPool` allocates them. -/
def fresh (first count : Nat) : List (PacketBuffer B) :=
  (List.range' first count).map fun id => ofData id [] (Nat.zero_le B)

@[simp] theorem getBufferSize_eq (b : PacketBuffer B) : b.getBufferSize = B := b.content_length

@[simp] theorem data_length (b : PacketBuffer B) : b.data.length = b.dataSize := by
  have h1 := b.content_length
  have h2 := b.dataSize_le
  rw [data, List.length_take]
  omega

@[simp] theorem data_clear (b : PacketBuffer B) : b.clear.data = [] := rfl

@[simp] theorem clear_clear (b : PacketBuffer B) : b.clear.clear = b.clear := rfl

@[simp] theorem id_clear (b : PacketBuffer B) : b.clear.id = b.id := rfl

theorem data_eq_nil {b : PacketBuffer B} : b.data = [] ↔ b.dataSize = 0 := by
  rw [← List.length_eq_zero_iff, data_length]

/-- A slice inside the data is a slice of the data. -/
theorem slice_eq {b : PacketBuffer B} {pos length : Nat} (h : pos + length ≤ b.dataSize) :
    b.slice pos length = (b.data.drop pos).take length := by
  rw [slice, data, List.drop_take, List.take_take, Nat.min_eq_left (by omega)]

theorem slice_zero_dataSize (b : PacketBuffer B) : b.slice 0 b.dataSize = b.data := rfl

theorem slice_length {b : PacketBuffer B} {pos length : Nat} (h : pos + length ≤ b.dataSize) :
    (b.slice pos length).length = length := by
  rw [slice_eq h, List.length_take, List.length_drop, data_length]
  omega

/-- **`append` adds the bytes to the data**, when they fit. -/
theorem append_ok (b : PacketBuffer B) (bytes : List UInt8) (h : b.dataSize + bytes.length ≤ B) :
    ∃ b', b.append bytes = .ok b' ∧ b'.data = b.data ++ bytes ∧ b'.id = b.id ∧
      b'.dataSize = b.dataSize + bytes.length := by
  refine ⟨_, dif_neg (by omega), ?_, rfl, rfl⟩
  exact take_overlay _ _ _ (b.content_length.symm ▸ h)

theorem setDataSize_ok (b : PacketBuffer B) {size : Nat} (h : size ≤ B) :
    ∃ b', b.setDataSize size = .ok b' ∧ b'.content = b.content ∧ b'.id = b.id ∧
      b'.dataSize = size :=
  ⟨_, dif_pos h, rfl, rfl, rfl⟩

theorem writeAt_ok (b : PacketBuffer B) (pos : Nat) (bytes : List UInt8)
    (h : pos + bytes.length ≤ B) :
    ∃ b', b.writeAt pos bytes = .ok b' ∧ b'.content = overlay b.content pos bytes ∧
      b'.id = b.id ∧ b'.dataSize = b.dataSize :=
  ⟨_, dif_pos h, rfl, rfl, rfl⟩

/-! No operation moves a buffer. -/

theorem append_id {b b' : PacketBuffer B} {bytes : List UInt8} (h : b.append bytes = .ok b') :
    b'.id = b.id := by
  unfold append at h
  split at h
  · cases h
  · exact Except.ok.inj h ▸ rfl

theorem setDataSize_id {b b' : PacketBuffer B} {size : Nat} (h : b.setDataSize size = .ok b') :
    b'.id = b.id := by
  unfold setDataSize at h
  split at h
  · exact Except.ok.inj h ▸ rfl
  · cases h

theorem writeAt_id {b b' : PacketBuffer B} {pos : Nat} {bytes : List UInt8}
    (h : b.writeAt pos bytes = .ok b') : b'.id = b.id := by
  unfold writeAt at h
  split at h
  · exact Except.ok.inj h ▸ rfl
  · cases h

/-! Nor does it change the size in another way. -/

theorem append_dataSize {b b' : PacketBuffer B} {bytes : List UInt8} (h : b.append bytes = .ok b') :
    b'.dataSize = b.dataSize + bytes.length := by
  unfold append at h
  split at h
  · cases h
  · exact Except.ok.inj h ▸ rfl

theorem setDataSize_dataSize {b b' : PacketBuffer B} {size : Nat} (h : b.setDataSize size = .ok b') :
    b'.dataSize = size := by
  unfold setDataSize at h
  split at h
  · exact Except.ok.inj h ▸ rfl
  · cases h

theorem writeAt_dataSize {b b' : PacketBuffer B} {pos : Nat} {bytes : List UInt8}
    (h : b.writeAt pos bytes = .ok b') : b'.dataSize = b.dataSize := by
  unfold writeAt at h
  split at h
  · exact Except.ok.inj h ▸ rfl
  · cases h

/-- A write inside the data. -/
theorem writeAt_data (b : PacketBuffer B) (pos : Nat) (bytes : List UInt8)
    (h : pos + bytes.length ≤ b.dataSize) :
    ∃ b', b.writeAt pos bytes = .ok b' ∧ b'.data = overlay b.data pos bytes ∧ b'.id = b.id ∧
      b'.dataSize = b.dataSize := by
  have hs := b.dataSize_le
  obtain ⟨b', h1, h2, h3, h4⟩ := writeAt_ok b pos bytes (h.trans hs)
  refine ⟨b', h1, ?_, h3, h4⟩
  rw [data, h2, h4, take_overlay_of_le h (b.content_length.symm ▸ hs), data]

end PacketBuffer
end SuperEthd
