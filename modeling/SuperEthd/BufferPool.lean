import SuperEthd.Buffer

/-! # Buffer pools

`accl::BufferPool`, one critical section at a time: every operation below holds the lock
from start to end. -/
namespace SuperEthd

/-- A pool made for buffers of `buffer_size` bytes, first in, first out. -/
structure BufferPool (T : Type) (buffer_size : Nat) where
  pool : List T
  deriving DecidableEq

namespace BufferPool
variable {T : Type} {n : Nat} (getBufferSize : T → Nat)

/-- `push(std::unique_ptr<T>)`. -/
def push (p : BufferPool T n) (buffer : T) : Except Stop (BufferPool T n) :=
  if getBufferSize buffer ≠ n then .error .invalidArgument else .ok ⟨p.pool ++ [buffer]⟩

/-- `push(std::deque<std::unique_ptr<T>> &)`: all buffers are checked before any is moved. -/
def pushBatch (p : BufferPool T n) (buffers : List T) : Except Stop (BufferPool T n) :=
  if buffers.any (fun buffer => getBufferSize buffer ≠ n) then .error .invalidArgument
  else .ok ⟨p.pool ++ buffers⟩

/-- `pop_wait`.  On an empty pool the caller waits. -/
def pop_wait (p : BufferPool T n) : Except Stop (T × BufferPool T n) :=
  match p.pool with
  | [] => .error .blocked
  | buffer :: rest => .ok (buffer, ⟨rest⟩)

/-- What is left in the pool when the sizes were right. -/
theorem eq_of_pushBatch {getBufferSize : T → Nat} {p pool : BufferPool T n} {buffers : List T}
    (h : p.pushBatch getBufferSize buffers = .ok pool) : pool = ⟨p.pool ++ buffers⟩ := by
  unfold pushBatch at h
  split at h
  · cases h
  · exact (Except.ok.inj h).symm

/-- The first buffer is the one that comes out. -/
theorem pool_of_pop_wait {p pool : BufferPool T n} {buffer : T} (h : p.pop_wait = .ok (buffer, pool)) :
    p.pool = buffer :: pool.pool := by
  unfold pop_wait at h
  split at h
  · cases h
  · obtain ⟨rfl, rfl⟩ := Prod.mk.inj (Except.ok.inj h)
    assumption

variable {B : Nat}

/-- A packet buffer has the size its pool was made for. -/
@[simp] theorem push_packetBuffer (p : BufferPool (PacketBuffer B) B) (b : PacketBuffer B) :
    p.push PacketBuffer.getBufferSize b = .ok ⟨p.pool ++ [b]⟩ := by
  simp [push]

@[simp] theorem pushBatch_packetBuffer (p : BufferPool (PacketBuffer B) B)
    (bs : List (PacketBuffer B)) :
    p.pushBatch PacketBuffer.getBufferSize bs = .ok ⟨p.pool ++ bs⟩ := by
  simp [pushBatch]

end BufferPool
end SuperEthd
