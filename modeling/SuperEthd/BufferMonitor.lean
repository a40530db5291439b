import SuperEthd.Lib.Path
import SuperEthd.BufferPool

/-! # The buffer pool as a monitor

`accl::BufferPool` shared by any number of threads.  A critical section is one step;
`cv.wait` leaves its thread among the waiting ones, `notify_one` picks one of these, and a
thread that was picked takes the lock again at some later step.  A waiting thread may also
come back on its own.  Two properties are looked at over whole runs: a thread that comes
back finds what it takes, and no thread is left waiting before a filled pool. -/
namespace SuperEthd

/-- The calls that may wait.  `wait_for` with a duration of zero waits without a limit. -/
inductive WaitCall
  | pop_wait
  | wait
  | wait_for (timed : Bool)
  deriving DecidableEq

/-- What a call gave its thread. -/
inductive Returned (T : Type)
  /-- `pop` or `pop_wait` -/
  | popped (buffer : T)
  /-- `pop` threw `std::bad_alloc` -/
  | badAlloc
  /-- `pop_wait` took `pool.front()` of an empty pool, which the language leaves undefined -/
  | undefined
  /-- `pop(count)` or `wait` -/
  | batch (results : List T)
  | waitedFor (result : Bool) (results : List T)

/-- A pool, the threads in `cv.wait`, those of them that were notified and have not run since, and a
record of what the calls gave. -/
structure Monitor (Thread T : Type) (n : Nat) where
  pool : BufferPool T n
  waiting : List (Thread × WaitCall)
  notified : List (Thread × WaitCall)
  returned : List (Thread × Returned T)

namespace WaitCall
variable {T : Type} {n : Nat}

/-- What the call does once it holds the lock for good: it does not look at the pool again. -/
def take (p : BufferPool T n) : WaitCall → Returned T × BufferPool T n
  | pop_wait =>
    match p.pop_wait with
    | .ok (buffer, rest) => (.popped buffer, rest)
    | .error _ => (.undefined, p)
  | wait => (.batch p.pool, ⟨[]⟩)
  | wait_for _ => (.waitedFor true p.pool, ⟨[]⟩)

/-- The call is to give its thread a buffer. -/
def Needs : WaitCall → Prop
  | wait => False
  | _ => True

/-- The call waits for as long as it takes. -/
def Unlimited : WaitCall → Prop
  | wait_for timed => timed = false
  | _ => True

/-- The call takes all there is. -/
def TakesAll : WaitCall → Prop
  | pop_wait => False
  | _ => True

end WaitCall

namespace Monitor
variable {Thread T : Type} {n : Nat}

/-- A pool that no thread has used. -/
def start (pool : List T) : Monitor Thread T n := ⟨⟨pool⟩, [], [], []⟩

/-- The thread is in no call. -/
def Free (s : Monitor Thread T n) (t : Thread) : Prop :=
  ∀ c, (t, c) ∉ s.waiting ∧ (t, c) ∉ s.notified

/-- What a thread does to the pool. -/
inductive Event (Thread T : Type)
  /-- the two `push`, and the waiting thread that `notify_one` picks -/
  | push (buffer : T) (woken : Option (Thread × WaitCall))
  | pushBatch (buffers : List T) (woken : Option (Thread × WaitCall))
  | pop (t : Thread)
  | popCount (t : Thread) (count : Nat)
  /-- a call that may wait -/
  | call (t : Thread) (c : WaitCall)
  /-- a thread that was notified runs -/
  | resume (w : Thread × WaitCall)
  /-- a thread that was not notified comes back from `cv.wait` -/
  | spurious (w : Thread × WaitCall)
  /-- `cv.wait_for` reports `timeout`, to a thread that was notified or to one that was not -/
  | timeout (w : Thread × WaitCall) (notified : Bool)

variable [DecidableEq Thread]

/-- `notify_one`: one of the waiting threads, if there are any. -/
inductive NotifyOne (s : Monitor Thread T n) :
    Option (Thread × WaitCall) → Monitor Thread T n → Prop
  | nobody : s.waiting = [] → NotifyOne s none s
  | woken {w : Thread × WaitCall} : w ∈ s.waiting →
      NotifyOne s (some w)
        { s with waiting := s.waiting.erase w, notified := s.notified ++ [w] }

variable (getBufferSize : T → Nat)

/-- **One critical section**, or the part of one before or behind `cv.wait`. -/
inductive Step (s : Monitor Thread T n) : Event Thread T → Monitor Thread T n → Prop
  | push {buffer p woken s'} : s.pool.push getBufferSize buffer = .ok p →
      NotifyOne { s with pool := p } woken s' → Step s (.push buffer woken) s'
  | pushRefused {buffer x} : s.pool.push getBufferSize buffer = .error x →
      Step s (.push buffer none) s
  | pushBatch {buffers p woken s'} : s.pool.pushBatch getBufferSize buffers = .ok p →
      NotifyOne { s with pool := p } woken s' → Step s (.pushBatch buffers woken) s'
  | pushBatchRefused {buffers x} : s.pool.pushBatch getBufferSize buffers = .error x →
      Step s (.pushBatch buffers none) s
  | pop {t buffer rest} : s.Free t → s.pool.pool = buffer :: rest →
      Step s (.pop t)
        { s with pool := ⟨rest⟩, returned := s.returned ++ [(t, .popped buffer)] }
  | popEmpty {t} : s.Free t → s.pool.pool = [] →
      Step s (.pop t) { s with returned := s.returned ++ [(t, .badAlloc)] }
  | popCount {t count} : s.Free t →
      Step s (.popCount t count)
        (let k := if count = 0 then s.pool.pool.length else count
        { s with
          pool := ⟨s.pool.pool.drop k⟩
          returned := s.returned ++ [(t, .batch (s.pool.pool.take k))] })
  | callTakes {t c} : s.Free t → s.pool.pool ≠ [] →
      Step s (.call t c)
        { s with pool := (c.take s.pool).2, returned := s.returned ++ [(t, (c.take s.pool).1)] }
  | callWaits {t c} : s.Free t → s.pool.pool = [] →
      Step s (.call t c) { s with waiting := s.waiting ++ [(t, c)] }
  | resume {w} : w ∈ s.notified →
      Step s (.resume w)
        { s with
          pool := (w.2.take s.pool).2
          notified := s.notified.erase w
          returned := s.returned ++ [(w.1, (w.2.take s.pool).1)] }
  | spurious {w} : w ∈ s.waiting →
      Step s (.spurious w)
        { s with
          pool := (w.2.take s.pool).2
          waiting := s.waiting.erase w
          returned := s.returned ++ [(w.1, (w.2.take s.pool).1)] }
  | timeout {t} : (t, .wait_for true) ∈ s.waiting →
      Step s (.timeout (t, .wait_for true) false)
        { s with
          waiting := s.waiting.erase (t, .wait_for true)
          returned := s.returned ++ [(t, .waitedFor false [])] }
  | timeoutNotified {t} : (t, .wait_for true) ∈ s.notified →
      Step s (.timeout (t, .wait_for true) true)
        { s with
          notified := s.notified.erase (t, .wait_for true)
          returned := s.returned ++ [(t, .waitedFor false [])] }

variable {getBufferSize} {s s' : Monitor Thread T n} {event : Event Thread T}

/-- `notify_one` moves at most one thread. -/
theorem NotifyOne.eq {woken : Option (Thread × WaitCall)} (h : NotifyOne s woken s') :
    s' = { s with
      waiting := woken.elim s.waiting s.waiting.erase
      notified := s.notified ++ woken.toList } ∧ (woken = none → s.waiting = []) := by
  cases h with
  | nobody h => exact ⟨by simp, fun _ => h⟩
  | woken hw => exact ⟨rfl, fun h => absurd h (Option.some_ne_none _)⟩

/-! ## What a thread finds when it comes back -/

/-- `pop_wait` gave a buffer, and a `wait_for` that returned true gave at least one. -/
def Sound : Returned T → Prop
  | .undefined => False
  | .waitedFor result results => result = true → results ≠ []
  | _ => True

/-- The event takes all of the `m` buffers of the pool. -/
def Event.Empties (m : Nat) : Event Thread T → Prop
  | .pop _ => m ≤ 1
  | .popCount _ count => count = 0 ∨ m ≤ count
  | .call _ c => c.TakesAll ∨ m ≤ 1
  | .resume w | .spurious w => w.2.TakesAll ∨ m ≤ 1
  | _ => False

/-- **What strands a thread**: the last buffer is taken while a notified `pop_wait` or `wait_for` has
not run, an empty batch notifies one before an empty pool, or one comes back on its own to it. -/
def Strands (s : Monitor Thread T n) : Event Thread T → Prop
  | .pushBatch buffers woken =>
    buffers = [] ∧ s.pool.pool = [] ∧ ∃ w ∈ woken, w.2.Needs
  | .resume w =>
    Event.Empties s.pool.pool.length (.resume w : Event Thread T) ∧
      ∃ w' ∈ s.notified.erase w, w'.2.Needs
  | .spurious w =>
    s.pool.pool = [] ∧ w.2.Needs ∨
      Event.Empties s.pool.pool.length (.spurious w : Event Thread T) ∧
        ∃ w' ∈ s.notified, w'.2.Needs
  | event => event.Empties s.pool.pool.length ∧ ∃ w' ∈ s.notified, w'.2.Needs

/-- Nothing unsound was returned, and no thread will find the pool empty that was notified. -/
structure Supplied (s : Monitor Thread T n) : Prop where
  returned : ∀ r ∈ s.returned, Sound r.2
  notified : s.pool.pool = [] → ∀ w ∈ s.notified, ¬w.2.Needs

/-- What the call takes from a pool with buffers is sound. -/
theorem sound_take {c : WaitCall} {p : BufferPool T n} (h : p.pool ≠ [] ∨ ¬c.Needs) :
    Sound (c.take p).1 := by
  cases c with
  | pop_wait =>
    have hp := h.resolve_right fun hc => hc trivial
    obtain ⟨b, rest, hb⟩ := List.exists_cons_of_ne_nil hp
    simp only [WaitCall.take, BufferPool.pop_wait, hb]
    trivial
  | wait => trivial
  | wait_for timed => exact fun _ => h.resolve_right fun hc => hc trivial

/-- The call empties the pool if it takes all or there is one buffer at most. -/
theorem take_pool {c : WaitCall} {p : BufferPool T n} (h : (c.take p).2.pool = []) :
    c.TakesAll ∨ p.pool.length ≤ 1 := by
  cases c with
  | pop_wait =>
    right
    obtain ⟨pool⟩ := p
    cases pool with
    | nil => exact Nat.zero_le 1
    | cons b rest =>
      obtain rfl : rest = [] := h
      exact Nat.le_refl 1
  | wait => exact Or.inl trivial
  | wait_for timed => exact Or.inl trivial

theorem forall_mem_concat {α : Type} {l : List α} {a : α} {p : α → Prop} (h : ∀ x ∈ l, p x)
    (ha : p a) : ∀ x ∈ l ++ [a], p x := by
  intro x hx
  rcases List.mem_append.mp hx with hx | hx
  · exact h x hx
  · rw [List.mem_singleton.mp hx]
    exact ha

/-- **A step that strands no thread.** -/
theorem Supplied.step (h : Supplied s) (hstep : Step getBufferSize s event s')
    (hok : ¬Strands s event) : Supplied s' := by
  cases hstep with
  | push hp hn =>
    obtain ⟨rfl, -⟩ := hn.eq
    refine ⟨h.returned, fun h0 => ?_⟩
    unfold BufferPool.push at hp
    split at hp
    · cases hp
    · rw [← Except.ok.inj hp] at h0
      exact absurd h0 (List.append_ne_nil_of_right_ne_nil _ (List.cons_ne_nil _ _))
  | pushRefused => exact h
  | @pushBatch buffers p woken _ hp hn =>
    obtain ⟨rfl, -⟩ := hn.eq
    refine ⟨h.returned, fun h0 w hw hneeds => ?_⟩
    unfold BufferPool.pushBatch at hp
    split at hp
    · cases hp
    · rw [← Except.ok.inj hp] at h0
      obtain ⟨hpool, hbuffers⟩ := List.append_eq_nil_iff.mp h0
      rcases List.mem_append.mp hw with hw | hw
      · exact h.notified hpool w hw hneeds
      · exact hok ⟨hbuffers, hpool, w, Option.mem_toList.mp hw, hneeds⟩
  | pushBatchRefused => exact h
  | @pop t buffer rest _ hpool =>
    refine ⟨forall_mem_concat h.returned trivial, fun h0 w hw hneeds => hok ⟨?_, w, hw, hneeds⟩⟩
    obtain rfl : rest = [] := h0
    rw [hpool]
    exact Nat.le_refl 1
  | popEmpty => exact ⟨forall_mem_concat h.returned trivial, h.notified⟩
  | @popCount t count =>
    refine ⟨forall_mem_concat h.returned trivial, fun h0 w hw hneeds => hok ⟨?_, w, hw, hneeds⟩⟩
    have h0 := List.drop_eq_nil_iff.mp h0
    by_cases hcount : count = 0
    · exact Or.inl hcount
    · rw [if_neg hcount] at h0
      exact Or.inr h0
  | callTakes _ hne =>
    exact ⟨forall_mem_concat h.returned (sound_take (Or.inl hne)), fun h0 w hw hneeds =>
      hok ⟨take_pool h0, w, hw, hneeds⟩⟩
  | callWaits => exact ⟨h.returned, h.notified⟩
  | @resume w hw =>
    -- the pool is not empty, or this thread needs nothing of it
    refine ⟨forall_mem_concat h.returned (sound_take ?_), fun h0 w' hw' hneeds =>
      hok ⟨take_pool h0, w', hw', hneeds⟩⟩
    by_cases hpool : s.pool.pool = []
    · exact Or.inr (h.notified hpool w hw)
    · exact Or.inl hpool
  | @spurious w hw =>
    refine ⟨forall_mem_concat h.returned (sound_take ?_), fun h0 w' hw' hneeds =>
      hok (Or.inr ⟨take_pool h0, w', hw', hneeds⟩)⟩
    by_cases hpool : s.pool.pool = []
    -- the thread would itself be stranded
    · exact Or.inr fun hneeds => hok (Or.inl ⟨hpool, hneeds⟩)
    · exact Or.inl hpool
  | timeout => exact ⟨forall_mem_concat h.returned (fun h => absurd h Bool.false_ne_true), h.notified⟩
  | timeoutNotified =>
    exact ⟨forall_mem_concat h.returned (fun h => absurd h Bool.false_ne_true), fun h0 w hw =>
      h.notified h0 w (List.mem_of_mem_erase hw)⟩

/-- **In every run in which no step strands a thread**, `pop_wait` never takes from an empty pool, and
`wait_for` returns true only with a buffer. -/
theorem sound_of_path {pool : List T} {events : List (Event Thread T)}
    (h : StepPath (fun s event s' => Step getBufferSize s event s' ∧ ¬Strands s event)
      (start pool : Monitor Thread T n) events s) : ∀ r ∈ s.returned, Sound r.2 :=
  (h.invariant (I := Supplied) (fun _ _ _ hs hstep => hs.step hstep.1 hstep.2)
    ⟨fun _ hr => absurd hr List.not_mem_nil, fun _ _ hw => absurd hw List.not_mem_nil⟩).returned

/-- What a call that needs a buffer takes from an empty pool is not sound. -/
theorem not_sound_take {c : WaitCall} {p : BufferPool T n} (hpool : p.pool = []) (hneeds : c.Needs) :
    ¬Sound (c.take p).1 := by
  cases c with
  | pop_wait => simp [WaitCall.take, BufferPool.pop_wait, hpool, Sound]
  | wait => exact hneeds.elim
  | wait_for timed => simp [WaitCall.take, hpool, Sound]

/-- A notified thread that needs a buffer is lost before an empty pool. -/
theorem exists_unsound {w : Thread × WaitCall} (hpool : s.pool.pool = []) (hw : w ∈ s.notified)
    (hneeds : w.2.Needs) :
    ∃ w s', Step getBufferSize s (.resume w) s' ∧ ∃ r ∈ s'.returned, ¬Sound r.2 :=
  ⟨w, _, .resume hw, _, List.mem_append_right _ (List.mem_singleton_self _),
    not_sound_take hpool hneeds⟩

omit [DecidableEq Thread] in
theorem drop_eq_nil_of_empties {t : Thread} {count : Nat} {l : List T}
    (h : Event.Empties l.length (.popCount t count : Event Thread T)) :
    l.drop (if count = 0 then l.length else count) = [] := by
  refine List.drop_eq_nil_of_le ?_
  split
  · exact Nat.le_refl _
  · exact h.resolve_left ‹_›

theorem take_pool_eq_nil {c : WaitCall} {p : BufferPool T n}
    (h : c.TakesAll ∨ p.pool.length ≤ 1) : (c.take p).2.pool = [] := by
  obtain ⟨pool⟩ := p
  cases c with
  | pop_wait =>
    rcases pool with - | ⟨b, - | ⟨b', rest⟩⟩
    · rfl
    · rfl
    · exact absurd (Nat.le_of_succ_le_succ (h.resolve_left id)) (Nat.not_succ_le_zero _)
  | wait => rfl
  | wait_for timed => rfl

/-- **A step that strands a thread** has an unsound result, or the next step may have one. -/
theorem unsound_of_strands (hstep : Step getBufferSize s event s') (h : Strands s event) :
    (∃ r ∈ s'.returned, ¬Sound r.2) ∨
      ∃ w s'', Step getBufferSize s' (.resume w) s'' ∧ ∃ r ∈ s''.returned, ¬Sound r.2 := by
  cases hstep with
  | push => exact h.1.elim
  | pushRefused => exact h.1.elim
  | pushBatch hp hn =>
    obtain ⟨rfl, -⟩ := hn.eq
    obtain ⟨rfl, hpool, w, hw, hneeds⟩ := h
    obtain rfl := Except.ok.inj hp
    exact Or.inr (exists_unsound (List.append_eq_nil_iff.mpr ⟨hpool, rfl⟩)
      (List.mem_append_right _ (Option.mem_toList.mpr hw)) hneeds)
  | pushBatchRefused =>
    obtain ⟨-, -, w, hw, -⟩ := h
    cases hw
  | @pop t buffer rest _ hpool =>
    obtain ⟨hempties, w, hw, hneeds⟩ := h
    rw [hpool] at hempties
    have hrest : rest = [] := List.eq_nil_of_length_eq_zero (Nat.le_zero.mp
      (Nat.le_of_succ_le_succ hempties))
    exact Or.inr (exists_unsound hrest hw hneeds)
  | popEmpty _ hpool =>
    obtain ⟨-, w, hw, hneeds⟩ := h
    exact Or.inr (exists_unsound hpool hw hneeds)
  | popCount =>
    obtain ⟨hempties, w, hw, hneeds⟩ := h
    exact Or.inr (exists_unsound (drop_eq_nil_of_empties hempties) hw hneeds)
  | callTakes =>
    obtain ⟨hempties, w, hw, hneeds⟩ := h
    exact Or.inr (exists_unsound (take_pool_eq_nil hempties) hw hneeds)
  | callWaits _ hpool =>
    obtain ⟨-, w, hw, hneeds⟩ := h
    exact Or.inr (exists_unsound hpool hw hneeds)
  | resume =>
    obtain ⟨hempties, w, hw, hneeds⟩ := h
    exact Or.inr (exists_unsound (take_pool_eq_nil hempties) hw hneeds)
  | @spurious w hw =>
    rcases h with ⟨hpool, hneeds⟩ | ⟨hempties, w', hw', hneeds⟩
    · exact Or.inl ⟨_, List.mem_append_right _ (List.mem_singleton_self _),
        not_sound_take hpool hneeds⟩
    · exact Or.inr (exists_unsound (take_pool_eq_nil hempties) hw' hneeds)
  | timeout => exact h.1.elim
  | timeoutNotified => exact h.1.elim

/-- A pool of buffers of four bytes, and threads with numbers. -/
abbrev Four := Monitor Nat (PacketBuffer 4) 4

/-- A thread waits, a buffer is pushed, and the thread gets it. -/
theorem sound_of_path_wait :
    let b : PacketBuffer 4 := .ofData 0 [] (by decide)
    ∃ (events : List (Event Nat (PacketBuffer 4))) (s : Four),
      StepPath (Step PacketBuffer.getBufferSize) (start [] : Four) events s ∧
      s.returned = [(0, .popped b)] ∧ ∀ r ∈ s.returned, Sound r.2 := by
  intro b
  have hfree : (start [] : Four).Free 0 := fun c => ⟨List.not_mem_nil, List.not_mem_nil⟩
  have hpath : StepPath (fun s event s' => Step PacketBuffer.getBufferSize s event s' ∧
      ¬Strands s event) (start [] : Four)
      [.call 0 .pop_wait, .push b (some (0, .pop_wait)), .resume (0, .pop_wait)]
      ⟨⟨[]⟩, [], [], [(0, .popped b)]⟩ := by
    refine .cons ⟨.callWaits hfree rfl, ?_⟩ (.cons ⟨.push (BufferPool.push_packetBuffer _ b)
      (.woken (List.mem_singleton_self _)), ?_⟩ (.cons ⟨.resume (List.mem_singleton_self _), ?_⟩
      (.nil _)))
    · rintro ⟨-, w, hw, -⟩
      exact absurd hw List.not_mem_nil
    · exact And.left
    · rintro ⟨-, w, hw, -⟩
      exact absurd hw List.not_mem_nil
  exact ⟨_, _, hpath.imp (fun _ _ _ _ h => h.1), rfl, sound_of_path hpath⟩

/-- **A buffer taken by another thread**: thread 0 waits in `pop_wait` and is notified, thread 1 pops
the buffer first, and thread 0 takes the front of an empty pool. -/
theorem pop_wait_takes_nothing :
    let b : PacketBuffer 4 := .ofData 0 [] (by decide)
    ∃ (events : List (Event Nat (PacketBuffer 4))) (s : Four),
      StepPath (Step PacketBuffer.getBufferSize) (start [] : Four) events s ∧
      s.returned = [(1, .popped b), (0, .undefined)] ∧ ¬∀ r ∈ s.returned, Sound r.2 := by
  intro b
  have hfree : (start [] : Four).Free 0 := fun c => ⟨List.not_mem_nil, List.not_mem_nil⟩
  have hfree1 : Monitor.Free (⟨⟨[b]⟩, [], [(0, .pop_wait)], []⟩ : Four) 1 := fun c =>
    ⟨List.not_mem_nil, fun h => by cases List.mem_singleton.mp h⟩
  refine ⟨[.call 0 .pop_wait, .push b (some (0, .pop_wait)), .pop 1, .resume (0, .pop_wait)],
    ⟨⟨[]⟩, [], [], [(1, .popped b), (0, .undefined)]⟩, ?_, rfl, fun h =>
      h (0, .undefined) (List.mem_cons_of_mem _ (List.mem_singleton_self _))⟩
  exact .cons (.callWaits hfree rfl) (.cons (.push (BufferPool.push_packetBuffer _ b)
    (.woken (List.mem_singleton_self _))) (.cons (.pop hfree1 rfl)
    (.cons (.resume (List.mem_singleton_self _)) (.nil _))))

/-! ## Who is left waiting -/

/-- With buffers there and no notified thread left to run, only threads with a time-out wait. -/
def Awake (s : Monitor Thread T n) : Prop :=
  s.notified = [] → s.pool.pool ≠ [] → ∀ w ∈ s.waiting, ¬w.2.Unlimited

/-- The notified threads see to the buffers: nobody waits without a time-out, or one of them takes
all, or there are as many of them as buffers. -/
def Covers (buffers : Nat) (waiting notified : List (Thread × WaitCall)) : Prop :=
  (∀ w ∈ waiting, ¬w.2.Unlimited) ∨ (∃ w ∈ notified, w.2.TakesAll) ∨ buffers ≤ notified.length

/-- The state is one in which every buffer is seen to. -/
def Covered (s : Monitor Thread T n) : Prop := Covers s.pool.pool.length s.waiting s.notified

variable (getBufferSize) in
/-- **What leaves a buffer to nobody**: a batch of two or more that is not refused, or a notified
`wait_for` that reports `timeout`, when the threads notified then do not see to all buffers. -/
def Stalls (s : Monitor Thread T n) : Event Thread T → Prop
  | .pushBatch buffers woken =>
    2 ≤ buffers.length ∧ (∀ b ∈ buffers, getBufferSize b = n) ∧
      ¬Covers (s.pool.pool.length + buffers.length)
        (woken.elim s.waiting s.waiting.erase) (s.notified ++ woken.toList)
  | .timeout w true => ¬Covers s.pool.pool.length s.waiting (s.notified.erase w)
  | _ => False

omit [DecidableEq Thread] in
theorem Covered.awake (h : Covered s) : Awake s := by
  intro hnotified hpool
  rcases h with h | ⟨w, hw, -⟩ | h
  · exact h
  · rw [hnotified] at hw
    exact absurd hw List.not_mem_nil
  · rw [hnotified] at h
    exact absurd (List.eq_nil_of_length_eq_zero (Nat.le_zero.mp h)) hpool

section
variable {buffers m : Nat} {waiting notified : List (Thread × WaitCall)} {w : Thread × WaitCall}

omit [DecidableEq Thread] in
/-- Fewer buffers and fewer waiting threads. -/
theorem Covers.mono {waiting' : List (Thread × WaitCall)} (h : Covers buffers waiting notified)
    (hm : m ≤ buffers) (hw : ∀ w ∈ waiting', w ∈ waiting) : Covers m waiting' notified :=
  h.imp (fun h w hmem => h w (hw w hmem)) (Or.imp_right hm.trans)

/-- One buffer more, and one thread notified if there is one. -/
theorem Covers.push {woken : Option (Thread × WaitCall)} (h : Covers buffers waiting notified)
    (hm : m ≤ buffers + 1) (hwoken : woken = none → waiting = []) :
    Covers m (woken.elim waiting waiting.erase) (notified ++ woken.toList) := by
  cases woken with
  | none =>
    left
    intro w hw
    rw [Option.elim_none, hwoken rfl] at hw
    exact absurd hw List.not_mem_nil
  | some w =>
    rcases h with h | ⟨w', hw', hall⟩ | h
    · exact Or.inl fun w' hw' => h w' (List.mem_of_mem_erase hw')
    · exact Or.inr (Or.inl ⟨w', List.mem_append_left _ hw', hall⟩)
    · refine Or.inr (Or.inr ?_)
      rw [Option.toList_some, List.length_append, List.length_singleton]
      omega

end

omit [DecidableEq Thread] in
theorem take_length_le (c : WaitCall) (p : BufferPool T n) :
    (c.take p).2.pool.length ≤ p.pool.length := by
  obtain ⟨pool⟩ := p
  cases c with
  | pop_wait =>
    cases pool with
    | nil => exact Nat.le_refl 0
    | cons b rest => exact Nat.le_succ _
  | wait => exact Nat.zero_le _
  | wait_for timed => exact Nat.zero_le _

/-- A notified thread takes the buffer it was notified for. -/
theorem Covered.resume {w : Thread × WaitCall} (h : Covered s) (hw : w ∈ s.notified) :
    Covers (w.2.take s.pool).2.pool.length s.waiting (s.notified.erase w) := by
  have hlen := List.length_erase_of_mem hw
  by_cases hall : w.2.TakesAll
  · refine Or.inr (Or.inr ?_)
    rw [take_pool_eq_nil (Or.inl hall)]
    exact Nat.zero_le _
  rcases h with h | ⟨w', hw', hall'⟩ | h
  · exact Or.inl h
  · have hne : w' ≠ w := fun heq => hall (heq ▸ hall')
    exact Or.inr (Or.inl ⟨w', (List.mem_erase_of_ne hne).mpr hw', hall'⟩)
  · refine Or.inr (Or.inr ?_)
    by_cases hle : s.pool.pool.length ≤ 1
    · rw [take_pool_eq_nil (Or.inr hle)]
      exact Nat.zero_le _
    · obtain ⟨t, c⟩ := w
      cases c with
      | pop_wait =>
        obtain ⟨b, rest, hpool⟩ := List.exists_cons_of_ne_nil
          (show s.pool.pool ≠ [] by rintro h0; rw [h0] at hle; exact hle (Nat.zero_le 1))
        rw [hpool, List.length_cons] at h
        simp only [WaitCall.take, BufferPool.pop_wait, hpool]
        omega
      | wait => exact absurd trivial hall
      | wait_for timed => exact absurd trivial hall

omit [DecidableEq Thread] in
/-- A batch that is accepted has buffers of the pool's size only. -/
theorem pushBatch_ok {p p' : BufferPool T n} {buffers : List T}
    (h : p.pushBatch getBufferSize buffers = .ok p') :
    (∀ b ∈ buffers, getBufferSize b = n) ∧ p' = ⟨p.pool ++ buffers⟩ := by
  refine ⟨fun b hb => ?_, BufferPool.eq_of_pushBatch h⟩
  unfold BufferPool.pushBatch at h
  split at h
  · cases h
  · by_contra hne
    exact ‹¬_› (List.any_eq_true.mpr ⟨b, hb, decide_eq_true hne⟩)

/-- **A step that leaves no buffer to nobody.** -/
theorem Covered.step (h : Covered s) (hstep : Step getBufferSize s event s')
    (hok : ¬Stalls getBufferSize s event) : Covered s' := by
  cases hstep with
  | push hp hn =>
    obtain ⟨rfl, hnone⟩ := hn.eq
    unfold BufferPool.push at hp
    split at hp
    · cases hp
    · refine Covers.push h ?_ hnone
      rw [← Except.ok.inj hp, List.length_append]
      exact Nat.le_refl _
  | pushRefused => exact h
  | @pushBatch buffers p woken _ hp hn =>
    obtain ⟨rfl, hnone⟩ := hn.eq
    obtain ⟨hsize, rfl⟩ := pushBatch_ok hp
    -- the one thread that is notified covers one buffer
    by_cases htwo : 2 ≤ buffers.length
    · by_contra hcovers
      rw [Covered, List.length_append] at hcovers
      exact hok ⟨htwo, hsize, hcovers⟩
    · refine Covers.push h ?_ hnone
      rw [List.length_append]
      omega
  | pushBatchRefused => exact h
  | @pop t buffer rest _ hpool =>
    refine Covers.mono h ?_ fun _ hw => hw
    rw [hpool]
    exact Nat.le_succ _
  | popEmpty => exact h
  | popCount =>
    refine Covers.mono h ?_ fun _ hw => hw
    rw [List.length_drop]
    exact Nat.sub_le _ _
  | callTakes => exact Covers.mono h (take_length_le _ _) fun _ hw => hw
  | callWaits _ hpool =>
    refine Or.inr (Or.inr ?_)
    rw [hpool]
    exact Nat.zero_le _
  | resume hw => exact h.resume hw
  | spurious hw => exact Covers.mono h (take_length_le _ _) fun _ => List.mem_of_mem_erase
  | timeout => exact Covers.mono h (Nat.le_refl _) fun _ => List.mem_of_mem_erase
  | timeoutNotified =>
    by_contra hcovers
    exact hok hcovers

/-- The notified threads take a buffer each, and somebody is left waiting before the others. -/
theorem exists_not_awake (h : ¬Covered s) :
    ∃ events s', StepPath (Step getBufferSize) s events s' ∧ ¬Awake s' := by
  induction hnotified : s.notified generalizing s with
  | nil =>
    refine ⟨[], s, .nil s, fun hawake => h ?_⟩
    by_cases hpool : s.pool.pool = []
    · refine Or.inr (Or.inr ?_)
      rw [hpool]
      exact Nat.zero_le _
    · exact Or.inl (hawake hnotified hpool)
  | cons w rest ih =>
    have hw : w ∈ s.notified := hnotified ▸ List.mem_cons_self
    obtain ⟨hwaiting, htakes, hlt⟩ : (¬∀ w ∈ s.waiting, ¬w.2.Unlimited) ∧
        (¬∃ w ∈ s.notified, w.2.TakesAll) ∧ ¬s.pool.pool.length ≤ s.notified.length :=
      ⟨fun h1 => h (Or.inl h1), fun h1 => h (Or.inr (Or.inl h1)), fun h1 => h (Or.inr (Or.inr h1))⟩
    have herase : s.notified.erase w = rest := by rw [hnotified, List.erase_cons_head]
    obtain ⟨events, s', hpath, hawake⟩ := ih
      (s := { s with
        pool := (w.2.take s.pool).2
        notified := s.notified.erase w
        returned := s.returned ++ [(w.1, (w.2.take s.pool).1)] }) (by
        rintro (h1 | ⟨w', hw', hall⟩ | h1)
        · exact hwaiting h1
        · exact htakes ⟨w', List.mem_of_mem_erase hw', hall⟩
        · rcases hc : w with ⟨t, - | - | timed⟩
          · obtain ⟨b, more, hpool⟩ := List.exists_cons_of_ne_nil
              (show s.pool.pool ≠ [] by rintro h0; exact hlt (h0 ▸ Nat.zero_le _))
            rw [hc] at h1
            simp only [WaitCall.take, BufferPool.pop_wait, hpool] at h1
            rw [hpool, hnotified, List.length_cons, List.length_cons] at hlt
            rw [← hc, herase] at h1
            omega
          · exact htakes ⟨w, hw, hc ▸ trivial⟩
          · exact htakes ⟨w, hw, hc ▸ trivial⟩) herase
    exact ⟨_, s', .cons (.resume hw) hpath, hawake⟩

/-- **A step that leaves a buffer to nobody** leads to a state with a thread waiting before it. -/
theorem not_awake_of_stalls (hstep : Step getBufferSize s event s')
    (h : Stalls getBufferSize s event) :
    ∃ events s'', StepPath (Step getBufferSize) s' events s'' ∧ ¬Awake s'' := by
  refine exists_not_awake fun hcovered => ?_
  cases hstep with
  | pushBatch hp hn =>
    obtain ⟨rfl, -⟩ := hn.eq
    obtain ⟨-, rfl⟩ := pushBatch_ok hp
    rw [Covered, List.length_append] at hcovered
    exact h.2.2 hcovered
  | @pushBatchRefused buffers x hp =>
    have hok : s.pool.pushBatch getBufferSize buffers = .ok ⟨s.pool.pool ++ buffers⟩ := by
      refine if_neg fun hany => ?_
      obtain ⟨b, hb, hne⟩ := List.any_eq_true.mp hany
      exact of_decide_eq_true hne (h.2.1 b hb)
    rw [hok] at hp
    cases hp
  | timeoutNotified => exact h hcovered
  | push | pushRefused | pop | popEmpty | popCount | callTakes | callWaits | resume | spurious
  | timeout => exact h

/-- **In every run in which no step leaves a buffer to nobody**, a pool with buffers and no notified
thread has no thread blocked in `pop_wait`, `wait`, or `wait_for` without a time-out. -/
theorem awake_of_path {pool : List T} {events : List (Event Thread T)}
    (h : StepPath (fun s event s' => Step getBufferSize s event s' ∧ ¬Stalls getBufferSize s event)
      (start pool : Monitor Thread T n) events s) : Awake s :=
  Covered.awake (h.invariant (I := Covered) (fun _ _ _ hs hstep => hs.step hstep.1 hstep.2)
    (Or.inl fun _ hw => absurd hw List.not_mem_nil))

/-- A thread waits, two buffers are pushed one by one, and the thread gets the first. -/
theorem awake_of_path_two :
    let b : PacketBuffer 4 := .ofData 0 [] (by decide)
    ∃ (events : List (Event Nat (PacketBuffer 4))) (s : Four),
      StepPath (Step PacketBuffer.getBufferSize) (start [] : Four) events s ∧
      s.notified = [] ∧ s.pool.pool = [b] ∧ Awake s := by
  intro b
  have hfree : (start [] : Four).Free 0 := fun c => ⟨List.not_mem_nil, List.not_mem_nil⟩
  have hpath : StepPath (fun s event s' => Step PacketBuffer.getBufferSize s event s' ∧
      ¬Stalls PacketBuffer.getBufferSize s event) (start [] : Four)
      [.call 0 .pop_wait, .push b (some (0, .pop_wait)), .push b none, .resume (0, .pop_wait)]
      ⟨⟨[b]⟩, [], [], [(0, .popped b)]⟩ :=
    .cons ⟨.callWaits hfree rfl, id⟩ (.cons ⟨.push (BufferPool.push_packetBuffer _ b)
      (.woken (List.mem_singleton_self _)), id⟩ (.cons ⟨.push (BufferPool.push_packetBuffer _ b)
      (.nobody rfl), id⟩ (.cons ⟨.resume (List.mem_singleton_self _), id⟩ (.nil _))))
  exact ⟨_, _, hpath.imp (fun _ _ _ _ h => h.1), rfl, rfl, awake_of_path hpath⟩

/-- **A buffer left to nobody**: threads 0 and 1 wait in `pop_wait`, a batch of two buffers is pushed
and notifies thread 0 alone, which takes one.  Thread 1 waits on before the other. -/
theorem pop_wait_sleeps_on :
    let b : PacketBuffer 4 := .ofData 0 [] (by decide)
    ∃ (events : List (Event Nat (PacketBuffer 4))) (s : Four),
      StepPath (Step PacketBuffer.getBufferSize) (start [] : Four) events s ∧
      s.notified = [] ∧ s.pool.pool = [b] ∧ s.waiting = [(1, .pop_wait)] ∧ ¬Awake s := by
  intro b
  have hfree : (start [] : Four).Free 0 := fun c => ⟨List.not_mem_nil, List.not_mem_nil⟩
  have hfree1 : Monitor.Free (⟨⟨[]⟩, [(0, .pop_wait)], [], []⟩ : Four) 1 := fun c =>
    ⟨fun h => (by cases List.mem_singleton.mp h), List.not_mem_nil⟩
  refine ⟨[.call 0 .pop_wait, .call 1 .pop_wait, .pushBatch [b, b] (some (0, .pop_wait)),
    .resume (0, .pop_wait)], ⟨⟨[b]⟩, [(1, .pop_wait)], [], [(0, .popped b)]⟩, ?_, rfl, rfl, rfl,
    fun h => h rfl (List.cons_ne_nil _ _) _ (List.mem_singleton_self _) trivial⟩
  exact .cons (.callWaits hfree rfl) (.cons (.callWaits hfree1 rfl)
    (.cons (.pushBatch (BufferPool.pushBatch_packetBuffer _ [b, b]) (.woken List.mem_cons_self))
    (.cons (.resume (List.mem_singleton_self _)) (.nil _))))

end Monitor
end SuperEthd
