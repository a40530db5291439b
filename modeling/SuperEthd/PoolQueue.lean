import SuperEthd.BufferPool
import SuperEthd.Lib.Call
import SuperEthd.Lib.Path

/-! # A pool is a queue

The operations of `accl::BufferPool` as they work on `std::deque<std::unique_ptr<T>>`, and the queue
that they amount to.  The pool, and the batch that a caller passes by reference, are lists of pointers;
`none` is one that was moved from. -/
namespace SuperEthd

/-- `std::deque<std::unique_ptr<T>>`. -/
abbrev UniqueDeque (T : Type) := List (Option T)

/-- `BUFFER_POOL_POP_ALL`. -/
def BUFFER_POOL_POP_ALL : Nat := 0

/-- What a call throws, or dies of. -/
inductive PoolError
  /-- `std::bad_alloc` -/
  | badAlloc
  /-- `std::invalid_argument` -/
  | invalidArgument
  /-- a null pointer was dereferenced -/
  | nullPointer
  deriving DecidableEq

/-- The pool and the deque of the caller. -/
structure PoolDeques (T : Type) where
  pool : UniqueDeque T
  buffers : UniqueDeque T

namespace PoolDeques
variable {T : Type} (buffer_size : Nat) (getBufferSize : T → Nat)

/-- The test of one buffer. -/
def checkSize {σ : Type} : Option T → EStateM PoolError σ Unit
  | none => throw .nullPointer
  | some buffer => if getBufferSize buffer ≠ buffer_size then throw .invalidArgument else pure ()

/-- `push(std::unique_ptr<T>)`. -/
def push (buffer : Option T) : EStateM PoolError (PoolDeques T) Unit := do
  checkSize buffer_size getBufferSize buffer
  modify fun d => { d with pool := d.pool ++ [buffer] }

/-- `push(std::deque<std::unique_ptr<T>> &)` of the caller's deque. -/
def pushBatch : EStateM PoolError (PoolDeques T) Unit := do
  let d ← get
  forM d.buffers (checkSize buffer_size getBufferSize)
  -- `std::move` of the range leaves null pointers behind
  modify fun d => { pool := d.pool ++ d.buffers, buffers := d.buffers.map fun _ => none }
  modify fun d => { d with buffers := [] }

/-- The loop of `_pop`.  The iterator stands between `moved` and `rest`. -/
def _popLoop (count i : Nat) (moved : UniqueDeque T) :
    UniqueDeque T → UniqueDeque T → UniqueDeque T × UniqueDeque T × UniqueDeque T
  | [], result => (moved, [], result)
  | buffer :: rest, result =>
    if count = 0 ∨ i < count then _popLoop count (i + 1) (moved ++ [none]) rest (result ++ [buffer])
    else (moved, buffer :: rest, result)

/-- `_pop`, which erases up to the iterator. -/
def _pop (count : Nat) : EStateM PoolError (PoolDeques T) (UniqueDeque T) := do
  let d ← get
  let (moved, rest, result) := _popLoop count 0 [] d.pool []
  set { d with pool := (moved ++ rest).drop moved.length }
  return result

/-- `pop()`. -/
def pop : EStateM PoolError (PoolDeques T) (Option T) := do
  let d ← get
  match d.pool with
  | [] => throw .badAlloc
  | buffer :: rest =>
    set { d with pool := rest }
    return buffer

/-- `pop(size_t)`. -/
def popCount (count : Nat) : EStateM PoolError (PoolDeques T) (UniqueDeque T) := _pop count

end PoolDeques

/-! ## Calls -/

/-- A call of a pool. -/
inductive PoolCall (T : Type)
  | push (buffer : T)
  | pushBatch (buffers : List T)
  | pop
  | popCount (count : Nat)

/-- What came of it: the pointers returned or the exception, and what is left in the caller's deque. -/
structure PoolReply (T : Type) where
  result : Except PoolError (UniqueDeque T)
  buffers : UniqueDeque T

/-- A call's reply, and the pool after it. -/
def PoolReply.ofResult {T : Type} :
    EStateM.Result PoolError (PoolDeques T) (UniqueDeque T) → PoolReply T × UniqueDeque T
  | .ok result d => (⟨.ok result, d.buffers⟩, d.pool)
  | .error e d => (⟨.error e, d.buffers⟩, d.pool)

namespace PoolCall
variable {T : Type} (buffer_size : Nat) (getBufferSize : T → Nat)

/-- The deque that the caller passes. -/
def argument : PoolCall T → UniqueDeque T
  | pushBatch buffers => buffers.map some
  | _ => []

def call : PoolCall T → EStateM PoolError (PoolDeques T) (UniqueDeque T)
  | push buffer => do
    PoolDeques.push buffer_size getBufferSize (some buffer)
    return []
  | pushBatch _ => do
    PoolDeques.pushBatch buffer_size getBufferSize
    return []
  | pop => do
    let buffer ← PoolDeques.pop
    return [buffer]
  | popCount count => PoolDeques.popCount count

/-- The call on a pool. -/
def exec (c : PoolCall T) (pool : UniqueDeque T) : PoolReply T × UniqueDeque T :=
  PoolReply.ofResult ((c.call buffer_size getBufferSize).run ⟨pool, c.argument⟩)

/-- Calls one after the other, each with its reply. -/
def execAll : List (PoolCall T) → UniqueDeque T → List (PoolCall T × PoolReply T) × UniqueDeque T
  | [], pool => ([], pool)
  | c :: calls, pool =>
    let (reply, pool) := c.exec buffer_size getBufferSize pool
    let (log, pool) := execAll calls pool
    ((c, reply) :: log, pool)

end PoolCall

/-! ## The queue -/

/-- **A queue with failures that change nothing**: what a call may do to a queue of buffers, and what
its reply is. -/
inductive QueueStep {T : Type} (buffer_size : Nat) (getBufferSize : T → Nat) :
    List T → PoolCall T × PoolReply T → List T → Prop
  | push {q : List T} {b : T} (hb : getBufferSize b = buffer_size) :
    QueueStep buffer_size getBufferSize q (.push b, ⟨.ok [], []⟩) (q ++ [b])
  | push_wrong {q : List T} {b : T} (hb : getBufferSize b ≠ buffer_size) :
    QueueStep buffer_size getBufferSize q (.push b, ⟨.error .invalidArgument, []⟩) q
  | pushBatch {q bs : List T} (hbs : ∀ b ∈ bs, getBufferSize b = buffer_size) :
    QueueStep buffer_size getBufferSize q (.pushBatch bs, ⟨.ok [], []⟩) (q ++ bs)
  | pushBatch_wrong {q bs : List T} (hbs : ∃ b ∈ bs, getBufferSize b ≠ buffer_size) :
    QueueStep buffer_size getBufferSize q (.pushBatch bs, ⟨.error .invalidArgument, bs.map some⟩) q
  | pop {q : List T} {b : T} : QueueStep buffer_size getBufferSize (b :: q) (.pop, ⟨.ok [some b], []⟩) q
  | pop_empty : QueueStep buffer_size getBufferSize [] (.pop, ⟨.error .badAlloc, []⟩) []
  | popCount {q bs : List T} {count : Nat}
    (hcount : bs.length = if count = BUFFER_POOL_POP_ALL then (bs ++ q).length
      else min count (bs ++ q).length) :
    QueueStep buffer_size getBufferSize (bs ++ q) (.popCount count, ⟨.ok (bs.map some), []⟩) q

namespace PoolReply
variable {T : Type}

/-- The pointers that a call gave out. -/
def popped (r : PoolReply T) : UniqueDeque T :=
  match r.result with
  | .ok result => result
  | .error _ => []

/-- The buffers that a call put in. -/
def pushed (c : PoolCall T) (r : PoolReply T) : List T :=
  match r.result, c with
  | .ok _, .push b => [b]
  | .ok _, .pushBatch bs => bs
  | _, _ => []

end PoolReply

section Queue
variable {T : Type} {buffer_size : Nat} {getBufferSize : T → Nat} {q q' : List T}
  {log : List (PoolCall T × PoolReply T)} {entry : PoolCall T × PoolReply T}

theorem QueueStep.fifo (h : QueueStep buffer_size getBufferSize q entry q') :
    entry.2.popped ++ q'.map some = (q ++ entry.2.pushed entry.1).map some := by
  cases h with
  | push | pushBatch => rfl
  | push_wrong | pushBatch_wrong | pop_empty => exact congrArg (List.map some) (List.append_nil _).symm
  | pop =>
    show [some _] ++ List.map some _ = List.map some (_ :: _ ++ [])
    rw [List.append_nil]
    rfl
  | popCount =>
    show List.map some _ ++ _ = (_ ++ _ ++ []).map some
    rw [List.append_nil, List.map_append]

theorem QueueStep.sized (h : QueueStep buffer_size getBufferSize q entry q')
    (hq : ∀ b ∈ q, getBufferSize b = buffer_size) : ∀ b ∈ q', getBufferSize b = buffer_size := by
  intro b hb
  cases h with
  | push hsize =>
    rcases List.mem_append.mp hb with hold | hnew
    · exact hq b hold
    · exact List.mem_singleton.mp hnew ▸ hsize
  | pushBatch hsizes =>
    rcases List.mem_append.mp hb with hold | hnew
    · exact hq b hold
    · exact hsizes b hnew
  | push_wrong | pushBatch_wrong | pop_empty => exact hq b hb
  | pop => exact hq b (List.mem_cons_of_mem _ hb)
  | popCount => exact hq b (List.mem_append_right _ hb)

/-- **First in, first out**: what the calls gave out and what is left is what was there and what they
put in, in this order. -/
theorem fifo_of_path (h : StepPath (QueueStep buffer_size getBufferSize) q log q') :
    (log.flatMap fun entry => entry.2.popped) ++ q'.map some =
      (q ++ log.flatMap fun entry => entry.2.pushed entry.1).map some := by
  induction h with
  | nil => simp
  | cons hstep _ ih =>
    have hfifo := hstep.fifo
    rw [List.map_append] at ih
    rw [List.flatMap_cons, List.flatMap_cons, List.append_assoc, ih, ← List.append_assoc, hfifo,
      ← List.map_append, List.append_assoc]

end Queue
/-! The pools of the other modules are such queues. -/

namespace BufferPool
variable {T : Type} {n : Nat} {getBufferSize : T → Nat} {p p' : BufferPool T n}

theorem queueStep_of_push {b : T} (h : p.push getBufferSize b = .ok p') :
    QueueStep n getBufferSize p.pool (.push b, ⟨.ok [], []⟩) p'.pool := by
  by_cases hb : getBufferSize b = n
  · rw [BufferPool.push, if_neg (not_not.mpr hb)] at h
    cases h
    exact .push hb
  · rw [BufferPool.push, if_pos hb] at h
    cases h

theorem queueStep_of_pushBatch {bs : List T} (h : p.pushBatch getBufferSize bs = .ok p') :
    QueueStep n getBufferSize p.pool (.pushBatch bs, ⟨.ok [], []⟩) p'.pool := by
  by_cases hbs : bs.any (fun buffer => getBufferSize buffer ≠ n)
  · rw [BufferPool.pushBatch, if_pos hbs] at h
    cases h
  · rw [BufferPool.pushBatch, if_neg hbs] at h
    cases h
    refine .pushBatch fun b hb => ?_
    by_contra hne
    exact hbs (List.any_eq_true.mpr ⟨b, hb, decide_eq_true hne⟩)

theorem queueStep_of_pop_wait {b : T} (h : p.pop_wait = .ok (b, p')) :
    QueueStep n getBufferSize p.pool (.pop, ⟨.ok [some b], []⟩) p'.pool := by
  cases hp : p.pool with
  | nil =>
    rw [BufferPool.pop_wait, hp] at h
    cases h
  | cons b' rest =>
    rw [BufferPool.pop_wait, hp] at h
    cases h
    exact .pop

end BufferPool

/-! ## The operations are the queue's -/

namespace PoolDeques
variable {T : Type} {buffer_size : Nat} {getBufferSize : T → Nat}

/-- The test of a batch throws at a buffer of another size, wherever it is, and changes nothing. -/
theorem checkSizes_run (buffer_size : Nat) (getBufferSize : T → Nat) {σ : Type} (bs : List T) (d : σ) :
    (forM (bs.map some) (checkSize buffer_size getBufferSize)).run d =
      if ∀ b ∈ bs, getBufferSize b = buffer_size then .ok ⟨⟩ d else .error .invalidArgument d := by
  induction bs with
  | nil => rfl
  | cons b bs ih =>
    rw [List.map_cons, List.forM_cons, EStateM.run_bind]
    by_cases hb : getBufferSize b = buffer_size
    · have hone : (checkSize buffer_size getBufferSize (some b)).run d = .ok ⟨⟩ d := by
        rw [checkSize, if_neg (not_not.mpr hb)]
        rfl
      rw [hone]
      refine ih.trans ?_
      simp only [List.forall_mem_cons, hb, true_and]
    · have hone : (checkSize buffer_size getBufferSize (some b)).run d = .error .invalidArgument d := by
        rw [checkSize, if_pos hb]
        rfl
      rw [hone, if_neg fun hall => hb (hall b List.mem_cons_self)]

/-- How many buffers `_pop` takes that has `i` of them. -/
def remaining (count i size : Nat) : Nat :=
  if count = BUFFER_POOL_POP_ALL then size else min (count - i) size

theorem remaining_all (i size : Nat) : remaining BUFFER_POOL_POP_ALL i size = size := if_pos rfl

theorem remaining_of_ne {count : Nat} (h : count ≠ BUFFER_POOL_POP_ALL) (i size : Nat) :
    remaining count i size = min (count - i) size := if_neg h

/-- **The loop of `_pop`** moves out as many buffers as it should, the first ones in their order. -/
theorem _popLoop_eq (count i : Nat) (moved rest result : UniqueDeque T) :
    _popLoop count i moved rest result =
      (moved ++ List.replicate (remaining count i rest.length) none,
        rest.drop (remaining count i rest.length),
        result ++ rest.take (remaining count i rest.length)) := by
  induction rest generalizing i moved result with
  | nil =>
    have hnone : remaining count i 0 = 0 := by
      rw [remaining, Nat.min_zero, ite_self]
    rw [_popLoop, List.length_nil, hnone]
    simp
  | cons buffer rest ih =>
    rw [_popLoop]
    by_cases hmore : count = 0 ∨ i < count
    · have hnext : remaining count i (buffer :: rest).length = remaining count (i + 1) rest.length + 1 := by
        by_cases hcount : count = 0
        · rw [hcount]
          exact (remaining_all i _).trans (congrArg (· + 1) (remaining_all (i + 1) rest.length).symm)
        · have hi : i < count := hmore.resolve_left hcount
          rw [remaining_of_ne hcount, remaining_of_ne hcount, List.length_cons]
          omega
      rw [if_pos hmore, ih, hnext]
      simp [List.replicate_succ]
    · have hdone : remaining count i (buffer :: rest).length = 0 := by
        obtain ⟨hcount, hi⟩ := not_or.mp hmore
        rw [remaining_of_ne hcount]
        omega
      rw [if_neg hmore, hdone]
      simp

/-- `_pop` takes the first buffers away, and leaves no null pointer. -/
theorem _pop_run (count : Nat) (d : PoolDeques T) :
    (_pop count).run d = .ok (d.pool.take (remaining count 0 d.pool.length))
      { d with pool := d.pool.drop (remaining count 0 d.pool.length) } := by
  have hloop := _popLoop_eq count 0 [] d.pool []
  rw [List.nil_append, List.nil_append] at hloop
  rw [_pop, EStateM.run_bind, EStateM.run_get]
  simp only [hloop, EStateM.run_bind, EStateM.run_set, EStateM.run_pure, List.drop_left]

theorem push_run (b : T) (d : PoolDeques T) :
    (push buffer_size getBufferSize (some b)).run d =
      if getBufferSize b = buffer_size then .ok ⟨⟩ { d with pool := d.pool ++ [some b] }
      else .error .invalidArgument d := by
  by_cases hb : getBufferSize b = buffer_size
  · rw [if_pos hb, push, EStateM.run_bind, checkSize, if_neg (not_not.mpr hb)]
    rfl
  · rw [if_neg hb, push, EStateM.run_bind, checkSize, if_pos hb]
    rfl

/-- **A batch** goes in as a whole and leaves the caller's deque empty, or both stay as they are. -/
theorem pushBatch_run (bs : List T) (pool : UniqueDeque T) :
    (pushBatch buffer_size getBufferSize).run ⟨pool, bs.map some⟩ =
      if ∀ b ∈ bs, getBufferSize b = buffer_size then .ok ⟨⟩ ⟨pool ++ bs.map some, []⟩
      else .error .invalidArgument ⟨pool, bs.map some⟩ := by
  have hcheck := checkSizes_run buffer_size getBufferSize bs
    (⟨pool, bs.map some⟩ : PoolDeques T)
  rw [pushBatch, EStateM.run_bind, EStateM.run_get]
  simp only [EStateM.run_bind, hcheck]
  by_cases hbs : ∀ b ∈ bs, getBufferSize b = buffer_size
  · rw [if_pos hbs, if_pos hbs]
    rfl
  · rw [if_neg hbs, if_neg hbs]

end PoolDeques

namespace PoolCall
variable {T : Type} (buffer_size : Nat) (getBufferSize : T → Nat)

/-- **One call** on a pool without null pointers is a step of the queue. -/
theorem exec_step (c : PoolCall T) (q : List T) :
    ∃ reply q', c.exec buffer_size getBufferSize (q.map some) = (reply, q'.map some) ∧
      QueueStep buffer_size getBufferSize q (c, reply) q' := by
  cases c with
  | push b =>
    by_cases hb : getBufferSize b = buffer_size
    · refine ⟨⟨.ok [], []⟩, q ++ [b], ?_, .push hb⟩
      rw [exec, call, EStateM.run_bind, PoolDeques.push_run, if_pos hb, List.map_append]
      rfl
    · refine ⟨⟨.error .invalidArgument, []⟩, q, ?_, .push_wrong hb⟩
      rw [exec, call, EStateM.run_bind, PoolDeques.push_run, if_neg hb]
      rfl
  | pushBatch bs =>
    by_cases hbs : ∀ b ∈ bs, getBufferSize b = buffer_size
    · refine ⟨⟨.ok [], []⟩, q ++ bs, ?_, .pushBatch hbs⟩
      rw [exec, call, EStateM.run_bind, argument, PoolDeques.pushBatch_run, if_pos hbs, List.map_append]
      rfl
    · obtain ⟨b, hb⟩ := not_forall.mp hbs
      refine ⟨⟨.error .invalidArgument, bs.map some⟩, q, ?_, .pushBatch_wrong ⟨b, Classical.not_imp.mp hb⟩⟩
      rw [exec, call, EStateM.run_bind, argument, PoolDeques.pushBatch_run, if_neg hbs]
      rfl
  | pop =>
    cases q with
    | nil => exact ⟨_, [], rfl, .pop_empty⟩
    | cons b q => exact ⟨_, q, rfl, .pop⟩
  | popCount count =>
    have hrun := PoolDeques._pop_run count (⟨q.map some, []⟩ : PoolDeques T)
    obtain ⟨k, hk⟩ : ∃ k, k = PoolDeques.remaining count 0 (q.map some).length := ⟨_, rfl⟩
    rw [← hk, ← List.map_take, ← List.map_drop] at hrun
    refine ⟨⟨.ok ((q.take k).map some), []⟩, q.drop k, ?_, ?_⟩
    · show PoolReply.ofResult ((PoolDeques._pop count).run ⟨q.map some, []⟩) = _
      rw [hrun]
      rfl
    · have hlength : (q.take k).length = if count = BUFFER_POOL_POP_ALL then (q.take k ++ q.drop k).length
          else min count (q.take k ++ q.drop k).length := by
        rw [List.take_append_drop, List.length_take, hk, PoolDeques.remaining, List.length_map]
        split
        · exact Nat.min_self _
        · omega
      have hstep : QueueStep buffer_size getBufferSize (q.take k ++ q.drop k)
          (.popCount count, ⟨.ok ((q.take k).map some), []⟩) (q.drop k) := .popCount hlength
      rwa [List.take_append_drop] at hstep

/-- **A sequence of calls** is a run of the queue. -/
theorem execAll_path (calls : List (PoolCall T)) (q : List T) :
    ∃ log q', execAll buffer_size getBufferSize calls (q.map some) = (log, q'.map some) ∧
      log.map Prod.fst = calls ∧ StepPath (QueueStep buffer_size getBufferSize) q log q' := by
  induction calls generalizing q with
  | nil => exact ⟨[], q, rfl, rfl, .nil q⟩
  | cons c calls ih =>
    obtain ⟨reply, t, hexec, hstep⟩ := c.exec_step buffer_size getBufferSize q
    obtain ⟨log, q', hall, hcalls, hpath⟩ := ih t
    refine ⟨(c, reply) :: log, q', ?_, congrArg (c :: ·) hcalls, .cons hstep hpath⟩
    rw [execAll, hexec]
    show (let (log, pool) := execAll buffer_size getBufferSize calls (t.map some); ((c, reply) :: log, pool)) = _
    rw [hall]

/-- **What a pool does**: it is left with the buffers `content`, by the steps of a queue. -/
structure Refines (buffer_size : Nat) (getBufferSize : T → Nat) (calls : List (PoolCall T)) (initial : List T)
    (log : List (PoolCall T × PoolReply T)) (pool : UniqueDeque T) (content : List T) : Prop where
  pool_eq : pool = content.map some
  calls_eq : log.map Prod.fst = calls
  steps : StepPath (QueueStep buffer_size getBufferSize) initial log content
  fifo : (log.flatMap fun entry => entry.2.popped) ++ pool =
    (initial ++ log.flatMap fun entry => entry.2.pushed entry.1).map some
  sized : ∀ b ∈ content, getBufferSize b = buffer_size

/-- **A pool is a FIFO queue** whose failing calls change nothing: whatever calls are made of a pool of
buffers of its size, each is a step of the queue, what was popped and what is left is what was there and
what was pushed, in order, and every buffer has the size of the pool. -/
theorem refines_queue (buffer_size : Nat) (getBufferSize : T → Nat) (initial : List T) (calls : List (PoolCall T))
    (hsizes : ∀ b ∈ initial, getBufferSize b = buffer_size) :
    ∃ content, Refines buffer_size getBufferSize calls initial
      (execAll buffer_size getBufferSize calls (initial.map some)).1
      (execAll buffer_size getBufferSize calls (initial.map some)).2 content := by
  obtain ⟨log, content, hall, hcalls, hpath⟩ :=
    execAll_path buffer_size getBufferSize calls initial
  have hsized : ∀ b ∈ content, getBufferSize b = buffer_size :=
    hpath.invariant (I := fun q => ∀ b ∈ q, getBufferSize b = buffer_size)
      (fun _ _ _ hq hstep => hstep.sized hq) hsizes
  rw [hall]
  exact ⟨content, rfl, hcalls, hpath, fifo_of_path hpath, hsized⟩

/-- Buffers of one byte, and a batch with one of two bytes at its end. -/
theorem refines_queue_mixed : ∃ content, Refines 1 List.length
    [.pushBatch [[2], [3, 4]], .popCount 2, .pushBatch [[5]], .pop, .pop] [[0], [1]]
    (execAll 1 List.length [.pushBatch [[2], [3, 4]], .popCount 2, .pushBatch [[5]], .pop, .pop]
      [some [0], some [1]]).1
    (execAll 1 List.length [.pushBatch [[2], [3, 4]], .popCount 2, .pushBatch [[5]], .pop, .pop]
      [some [0], some [1]]).2 content :=
  refines_queue 1 List.length [[0], [1]] _ (by decide)

end PoolCall
end SuperEthd
