import Mathlib.Algebra.BigOperators.Group.Finset.Piecewise
import SuperEthd.Lib.PointUpdate
import SuperEthd.Ownership
import SuperEthd.PacketSwitch

/-! # Frames for all nodes

The branch of `PacketSwitch::tunnel_tap_read_handler` for a multicast destination, one critical section
of a pool at a time, beside the other threads.  `buffer` is the pointer of the handler, which is null
once it was moved.

* `next` is what the handler does in its next critical section, with the fast path for a single node and
  the loop for more; a run of `Step` interleaves it with the other threads, which may do anything with
  the buffers that are not in the handler's hands (`Step.others`), but leave the map of the nodes alone.
* A push appends to the encoder pool of the node (`poolsAfter`, `Received`), so what the labels say of
  a run is what the pools were given.
* `pop_wait` is taken as blocking until the pool has a buffer, so at an empty pool the handler has no
  step.  What a stolen or a spurious wake-up does to it is left to `BufferMonitor`.
-/
namespace SuperEthd

variable {B : Nat}

/-- Where the TAP reader is with a frame for all. -/
inductive BroadcastPoint (B : Nat)
  /-- its destination is seen to be a multicast address -/
  | multicast
  /-- in the loop; `rest` are the nodes from `it` on -/
  | loop (rest : List In6Addr)
  /-- `it` is not the last node, and a buffer was taken for it -/
  | copying (it : In6Addr) (rest : List In6Addr) (buffer_copy : PacketBuffer B)
  /-- behind the branch -/
  | done
  /-- a null pointer was dereferenced, or a pool threw -/
  | crashed

/-- What happens to a buffer in the branch. -/
inductive BroadcastEvent (B : Nat)
  | taken (buffer_copy : PacketBuffer B)
  | pushed (node : In6Addr) (buffer : PacketBuffer B)

/-- The reader in this branch.  `others` are the buffers of the other threads. -/
structure Broadcast (B : Nat) where
  switch : PacketSwitch B
  others : Multiset Nat
  buffer : Option (PacketBuffer B)
  point : BroadcastPoint B

namespace Broadcast

/-- `getEncoderPool()->push(std::move(pointer))`; the state is `after` then. -/
def pushMoved (s : Broadcast B) (node : In6Addr) (pointer : Option (PacketBuffer B)) (after : Broadcast B) :
    Option (BroadcastEvent B) × Broadcast B :=
  match pointer with
  | none => (none, { s with point := .crashed })
  | some buffer =>
    match (PacketSwitch.pushTo node buffer).run s.switch with
    | .ok _ switch => (some (.pushed node buffer), { after with switch := switch })
    | .error _ _ => (none, { s with point := .crashed })

/-- What the reader does next, if it is not done and does not wait in `pop_wait`. -/
def next (s : Broadcast B) : Option (Option (BroadcastEvent B) × Broadcast B) :=
  match s.point with
  | .multicast =>
    match s.switch.remote_nodes with
    | [remote_node] => some (s.pushMoved remote_node s.buffer { s with buffer := none, point := .done })
    | remote_nodes => some (none, { s with point := .loop remote_nodes })
  | .loop [] => some (none, { s with point := .done })
  | .loop (it :: rest) =>
    if some it = s.switch.remote_nodes.getLast? then
      some (s.pushMoved it s.buffer { s with buffer := none, point := .loop rest })
    else
      match s.switch.available_rx_buffer_pool.pop_wait with
      | .ok (buffer_copy, pool) => some (some (.taken buffer_copy),
          { s with
            switch := { s.switch with available_rx_buffer_pool := pool }
            point := .copying it rest buffer_copy })
      | .error _ => none
  | .copying it rest buffer_copy =>
    match s.buffer with
    | some buffer => some (s.pushMoved it (some (buffer_copy.assign buffer)) { s with point := .loop rest })
    | none => some (none, { s with point := .crashed })
  | .done => none
  | .crashed => none

/-- The buffers that are not in the hands of the reader. -/
def shared (s : Broadcast B) : Multiset Nat :=
  ids s.switch.available_rx_buffer_pool.pool +
    ∑ node ∈ s.switch.remote_nodes.toFinset, ids (s.switch.encoder_pool node).pool + s.others

/-- **The threads.**  A step is labelled with what the reader does to a buffer, if anything. -/
inductive Step : Broadcast B → Option (BroadcastEvent B) → Broadcast B → Prop
  | reader {s s' : Broadcast B} {event : Option (BroadcastEvent B)} (run : s.next = some (event, s')) :
    Step s event s'
  /-- the other threads do what they like with the buffers that are not the reader's -/
  | others {s s' : Broadcast B} (buffer : s'.buffer = s.buffer) (point : s'.point = s.point)
    (remote_nodes : s'.switch.remote_nodes = s.switch.remote_nodes) (kept : s'.shared ≤ s.shared) :
    Step s none s'

/-- The buffer that a copy is made in. -/
def copyBuffer : BroadcastPoint B → List (PacketBuffer B)
  | .copying _ _ buffer_copy => [buffer_copy]
  | _ => []

/-- All buffers there are. -/
def owned (s : Broadcast B) : Multiset Nat :=
  s.shared + ids s.buffer.toList + ids (copyBuffer s.point)

/-- The buffers taken in a run. -/
def takenIn (labels : List (Option (BroadcastEvent B))) : List (PacketBuffer B) :=
  labels.filterMap fun
    | some (.taken buffer_copy) => some buffer_copy
    | _ => none

/-- What was pushed in a run, and to which node. -/
def pushedIn (labels : List (Option (BroadcastEvent B))) : List (In6Addr × PacketBuffer B) :=
  labels.filterMap fun
    | some (.pushed node buffer) => some (node, buffer)
    | _ => none

/-- **A frame is replicated exactly**: each node gets one buffer with the data of the frame, which is a
buffer taken for it, or in the end the one that was read into, and no other buffers are taken. -/
structure Replicated (remote_nodes : List In6Addr) (buffer : PacketBuffer B)
    (labels : List (Option (BroadcastEvent B))) : Prop where
  nodes : (pushedIn labels).map Prod.fst = remote_nodes
  frame : ∀ pushed ∈ pushedIn labels, pushed.2.data = buffer.data ∧ pushed.2.dataSize = buffer.dataSize
  buffers : (pushedIn labels).map (fun pushed => pushed.2.id) =
    (takenIn labels).map PacketBuffer.id ++ [buffer.id]
  count : (takenIn labels).length = remote_nodes.length - 1

/-- The encoder pools behind a move of the reader: a buffer that is pushed to a node is then at the back
of its pool, and nothing else changes a pool. -/
def poolsAfter (pools : In6Addr → BufferPool (PacketBuffer B) B) :
    Option (BroadcastEvent B) → In6Addr → BufferPool (PacketBuffer B) B
  | some (.pushed node buffer) => Function.update pools node ⟨(pools node).pool ++ [buffer]⟩
  | some (.taken _) => pools
  | none => pools

/-- **What a run pushed was received**: wherever it pushes a buffer to a node, the encoder pool of that
node has the buffer appended, and no other pool changes. -/
def Received (s₀ : Broadcast B) (labels : List (Option (BroadcastEvent B))) (s : Broadcast B) : Prop :=
  ∀ before node pushed after, labels = before ++ some (.pushed node pushed) :: after →
    ∃ t t', StepPath Step s₀ before t ∧ Step t (some (.pushed node pushed)) t' ∧ StepPath Step t' after s ∧
      t'.switch.encoder_pool =
        Function.update t.switch.encoder_pool node ⟨(t.switch.encoder_pool node).pool ++ [pushed]⟩

/-- A frame for all was read. -/
structure Starts (remote_nodes : List In6Addr) (buffer : PacketBuffer B) (s : Broadcast B) : Prop where
  remote_nodes : s.switch.remote_nodes = remote_nodes
  buffer : s.buffer = some buffer
  point : s.point = .multicast
  owned : s.owned.Nodup

section Runs
variable {s s' : Broadcast B} {remote_nodes : List In6Addr} {buffer : PacketBuffer B}
  {labels : List (Option (BroadcastEvent B))} {event : Option (BroadcastEvent B)} {node : In6Addr}

/-! ## One push -/

/-- The switch once a node was pushed a buffer. -/
def afterPush (switch : PacketSwitch B) (node : In6Addr) (buffer : PacketBuffer B) : PacketSwitch B :=
  { switch with
    encoder_pool := Function.update switch.encoder_pool node ⟨(switch.encoder_pool node).pool ++ [buffer]⟩ }

theorem pushMoved_some (after : Broadcast B) : s.pushMoved node (some buffer) after =
    (some (.pushed node buffer), { after with switch := afterPush s.switch node buffer }) := by
  rw [pushMoved, PacketSwitch.pushTo_run]
  rfl

/-- A buffer pushed to a node is shared. -/
theorem sum_push (pools : In6Addr → BufferPool (PacketBuffer B) B) (buffer : PacketBuffer B)
    (hnode : node ∈ remote_nodes) :
    ∑ n ∈ remote_nodes.toFinset, ids (Function.update pools node ⟨(pools node).pool ++ [buffer]⟩ n).pool =
      ∑ n ∈ remote_nodes.toFinset, ids (pools n).pool + {buffer.id} := by
  have hsum := PointUpdate.sum_add (fun pool : BufferPool (PacketBuffer B) B => ids pool.pool) pools
    (List.mem_toFinset.mpr hnode) ⟨(pools node).pool ++ [buffer]⟩
  simp only [ids_append, ids_cons, ids_nil, add_zero] at hsum
  rw [add_comm (ids (pools node).pool), ← add_assoc] at hsum
  exact add_right_cancel hsum

/-- A push of the reader's pointer is a push to the pool, or a crash that changes none. -/
theorem pushMoved_pools {pointer : Option (PacketBuffer B)} {after t : Broadcast B}
    (h : s.pushMoved node pointer after = (event, t)) :
    t.switch.encoder_pool = poolsAfter s.switch.encoder_pool event := by
  cases pointer with
  | none =>
    cases h
    rfl
  | some buffer =>
    rw [pushMoved_some] at h
    cases h
    rfl

/-- **What a move does to the encoder pools.** -/
theorem next_pools (h : s.next = some (event, s')) :
    s'.switch.encoder_pool = poolsAfter s.switch.encoder_pool event := by
  unfold next at h
  split at h
  · split at h
    · exact pushMoved_pools (Option.some.inj h)
    · cases h
      rfl
  · cases h
    rfl
  · split at h
    · exact pushMoved_pools (Option.some.inj h)
    · split at h
      · cases h
        rfl
      · cases h
  · split at h
    · exact pushMoved_pools (Option.some.inj h)
    · cases h
      rfl
  · cases h
  · cases h

/-- Only the reader pushes. -/
theorem received_of_path {s₀ : Broadcast B} (hrun : StepPath Step s₀ labels s) : Received s₀ labels s := by
  rintro before node pushed after rfl
  obtain ⟨t, hbefore, hrest⟩ := StepPath.append_iff.mp hrun
  obtain ⟨t', hstep, hafter⟩ := StepPath.cons_iff.mp hrest
  refine ⟨t, t', hbefore, hstep, hafter, ?_⟩
  cases hstep with
  | reader hnext => exact next_pools hnext

/-! ## The invariant -/

/-- The nodes that were served, each with a copy, in some prefix of the nodes. -/
structure Served (buffer : PacketBuffer B) (nodes : List In6Addr)
    (labels : List (Option (BroadcastEvent B))) : Prop where
  nodes : (pushedIn labels).map Prod.fst = nodes
  frame : ∀ pushed ∈ pushedIn labels, pushed.2.data = buffer.data ∧ pushed.2.dataSize = buffer.dataSize
  buffers : (pushedIn labels).map (fun pushed => pushed.2.id) = (takenIn labels).map PacketBuffer.id

/-- **The invariant of the branch**, by where the reader is. -/
def Inv (remote_nodes : List In6Addr) (buffer : PacketBuffer B) (labels : List (Option (BroadcastEvent B)))
    (s : Broadcast B) : Prop :=
  match s.point with
  | .multicast => s.buffer = some buffer ∧ Served buffer [] labels
  | .loop [] => s.buffer = none ∧ Replicated remote_nodes buffer labels
  | .loop (it :: rest) => s.buffer = some buffer ∧
      ∃ nodes, remote_nodes = nodes ++ it :: rest ∧ Served buffer nodes labels
  | .copying it rest buffer_copy => s.buffer = some buffer ∧ rest ≠ [] ∧
      ∃ nodes before, remote_nodes = nodes ++ it :: rest ∧ Served buffer nodes before ∧
        pushedIn labels = pushedIn before ∧ takenIn labels = takenIn before ++ [buffer_copy]
  | .done => s.buffer = none ∧ Replicated remote_nodes buffer labels
  | .crashed => False

theorem takenIn_concat (labels : List (Option (BroadcastEvent B))) (event : Option (BroadcastEvent B)) :
    takenIn (labels ++ [event]) = takenIn labels ++ takenIn [event] := List.filterMap_append

theorem pushedIn_concat (labels : List (Option (BroadcastEvent B))) (event : Option (BroadcastEvent B)) :
    pushedIn (labels ++ [event]) = pushedIn labels ++ pushedIn [event] := List.filterMap_append

/-- Labels that say nothing new. -/
theorem silent_concat (labels : List (Option (BroadcastEvent B))) :
    takenIn (labels ++ [none]) = takenIn labels ∧ pushedIn (labels ++ [none]) = pushedIn labels := by
  constructor
  · rw [takenIn_concat]
    exact List.append_nil _
  · rw [pushedIn_concat]
    exact List.append_nil _

theorem Served.silent {nodes : List In6Addr} (h : Served buffer nodes labels) :
    Served buffer nodes (labels ++ [none]) := by
  obtain ⟨htaken, hpushed⟩ := silent_concat labels
  exact ⟨hpushed ▸ h.nodes, hpushed ▸ h.frame, by rw [htaken, hpushed]; exact h.buffers⟩

theorem Replicated.silent (h : Replicated remote_nodes buffer labels) :
    Replicated remote_nodes buffer (labels ++ [none]) := by
  obtain ⟨htaken, hpushed⟩ := silent_concat labels
  exact ⟨hpushed ▸ h.nodes, hpushed ▸ h.frame, by rw [htaken, hpushed]; exact h.buffers, htaken ▸ h.count⟩

theorem Served.length {nodes : List In6Addr} (h : Served buffer nodes labels) :
    (takenIn labels).length = nodes.length := by
  have hbuffers := congrArg List.length h.buffers
  rw [List.length_map, List.length_map] at hbuffers
  rw [← hbuffers, ← h.nodes, List.length_map]

/-- One more push serves one more node. -/
theorem Served.nodes_concat {nodes : List In6Addr} {it : In6Addr} {pushed : PacketBuffer B}
    {before : List (Option (BroadcastEvent B))} (h : Served buffer nodes before)
    (hpushed : pushedIn labels = pushedIn before ++ [(it, pushed)]) :
    (pushedIn labels).map Prod.fst = nodes ++ [it] := by
  rw [hpushed, List.map_append, h.nodes]
  rfl

theorem Served.frame_concat {nodes : List In6Addr} {it : In6Addr} {pushed : PacketBuffer B}
    {before : List (Option (BroadcastEvent B))} (h : Served buffer nodes before)
    (hpushed : pushedIn labels = pushedIn before ++ [(it, pushed)])
    (hframe : pushed.data = buffer.data ∧ pushed.dataSize = buffer.dataSize) :
    ∀ p ∈ pushedIn labels, p.2.data = buffer.data ∧ p.2.dataSize = buffer.dataSize := by
  intro p hmem
  rw [hpushed] at hmem
  rcases List.mem_append.mp hmem with hold | hnew
  · exact h.frame p hold
  · rw [List.mem_singleton.mp hnew]
    exact hframe

/-- A node gets its copy. -/
theorem Served.copied {nodes : List In6Addr} {it : In6Addr} {buffer_copy : PacketBuffer B}
    {before : List (Option (BroadcastEvent B))} (h : Served buffer nodes before)
    (hpushed : pushedIn labels = pushedIn before)
    (htaken : takenIn labels = takenIn before ++ [buffer_copy]) :
    Served buffer (nodes ++ [it]) (labels ++ [some (.pushed it (buffer_copy.assign buffer))]) := by
  have hpushed' : pushedIn (labels ++ [some (.pushed it (buffer_copy.assign buffer))]) =
      pushedIn before ++ [(it, buffer_copy.assign buffer)] := by
    rw [pushedIn_concat, hpushed]
    rfl
  have htaken' : takenIn (labels ++ [some (.pushed it (buffer_copy.assign buffer))]) =
      takenIn before ++ [buffer_copy] := by
    rw [takenIn_concat, htaken]
    exact List.append_nil _
  constructor
  · exact h.nodes_concat hpushed'
  · exact h.frame_concat hpushed' ⟨rfl, rfl⟩
  · rw [hpushed', htaken', List.map_append, List.map_append, h.buffers]
    rfl

/-- The last node gets the buffer itself. -/
theorem Served.last {nodes : List In6Addr} {it : In6Addr} (h : Served buffer nodes labels) :
    Replicated (nodes ++ [it]) buffer (labels ++ [some (.pushed it buffer)]) := by
  have hpushed : pushedIn (labels ++ [some (.pushed it buffer)]) = pushedIn labels ++ [(it, buffer)] :=
    pushedIn_concat _ _
  have htaken : takenIn (labels ++ [some (.pushed it buffer)]) = takenIn labels := by
    rw [takenIn_concat]
    exact List.append_nil _
  constructor
  · exact h.nodes_concat hpushed
  · exact h.frame_concat hpushed ⟨rfl, rfl⟩
  · rw [hpushed, htaken, List.map_append, h.buffers]
    rfl
  · rw [htaken, h.length, List.length_append, List.length_singleton, Nat.add_sub_cancel]

/-- `it` is the last entry of the map where no other follows it. -/
theorem eq_getLast_iff {nodes rest : List In6Addr} {it : In6Addr} (hnodup : (nodes ++ it :: rest).Nodup) :
    some it = (nodes ++ it :: rest).getLast? ↔ rest = [] := by
  rw [List.getLast?_append_cons]
  constructor
  · intro h
    cases rest with
    | nil => rfl
    | cons next rest =>
      have hlast : it ∈ next :: rest := List.mem_of_getLast? (by rw [← List.getLast?_cons_cons]; exact h.symm)
      exact absurd hlast (List.nodup_cons.mp (List.nodup_append.mp hnodup).2.1).1
  · rintro rfl
    rfl

/-! ## The moves of the reader -/

section Moves
variable {it : In6Addr} {rest : List In6Addr} {buffer_copy : PacketBuffer B} {pool : List (PacketBuffer B)}

theorem next_single (hpoint : s.point = .multicast) (hnodes : s.switch.remote_nodes = [node])
    (hbuffer : s.buffer = some buffer) : s.next = some (some (.pushed node buffer),
      { s with switch := afterPush s.switch node buffer, buffer := none, point := .done }) := by
  simp only [next, hpoint, hnodes, hbuffer, pushMoved_some]

theorem next_enter (hpoint : s.point = .multicast) (hnodes : ∀ node, s.switch.remote_nodes ≠ [node]) :
    s.next = some (none, { s with point := .loop s.switch.remote_nodes }) := by
  simp only [next, hpoint]

theorem next_end (hpoint : s.point = .loop []) : s.next = some (none, { s with point := .done }) := by
  simp only [next, hpoint]

theorem next_last (hpoint : s.point = .loop (it :: rest)) (hlast : some it = s.switch.remote_nodes.getLast?)
    (hbuffer : s.buffer = some buffer) : s.next = some (some (.pushed it buffer),
      { s with switch := afterPush s.switch it buffer, buffer := none, point := .loop rest }) := by
  simp only [next, hpoint, if_pos hlast, hbuffer, pushMoved_some]

theorem next_take (hpoint : s.point = .loop (it :: rest)) (hlast : some it ≠ s.switch.remote_nodes.getLast?)
    (hpool : s.switch.available_rx_buffer_pool.pool = buffer_copy :: pool) :
    s.next = some (some (.taken buffer_copy), { s with
      switch := { s.switch with available_rx_buffer_pool := ⟨pool⟩ }
      point := .copying it rest buffer_copy }) := by
  simp only [next, hpoint, if_neg hlast, BufferPool.pop_wait, hpool]

theorem next_wait (hpoint : s.point = .loop (it :: rest)) (hlast : some it ≠ s.switch.remote_nodes.getLast?)
    (hpool : s.switch.available_rx_buffer_pool.pool = []) : s.next = none := by
  simp only [next, hpoint, if_neg hlast, BufferPool.pop_wait, hpool]

theorem next_copy (hpoint : s.point = .copying it rest buffer_copy) (hbuffer : s.buffer = some buffer) :
    s.next = some (some (.pushed it (buffer_copy.assign buffer)),
      { s with switch := afterPush s.switch it (buffer_copy.assign buffer), point := .loop rest }) := by
  simp only [next, hpoint, hbuffer, pushMoved_some]

end Moves

/-- **What the reader can do**, in a run with this map of nodes. -/
inductive Moves (remote_nodes : List In6Addr) (buffer : PacketBuffer B) (s : Broadcast B) :
    Option (BroadcastEvent B) → Broadcast B → Prop
  | single {node : In6Addr} (point : s.point = .multicast) (nodes : remote_nodes = [node]) :
    Moves remote_nodes buffer s (some (.pushed node buffer))
      { s with switch := afterPush s.switch node buffer, buffer := none, point := .done }
  | enter {it : In6Addr} {rest : List In6Addr} (point : s.point = .multicast) (nodes : remote_nodes = it :: rest) :
    Moves remote_nodes buffer s none { s with point := .loop (it :: rest) }
  | finish (point : s.point = .loop []) : Moves remote_nodes buffer s none { s with point := .done }
  | last {it : In6Addr} {before : List In6Addr} (point : s.point = .loop [it])
    (nodes : remote_nodes = before ++ [it]) : Moves remote_nodes buffer s (some (.pushed it buffer))
      { s with switch := afterPush s.switch it buffer, buffer := none, point := .loop [] }
  | take {it next : In6Addr} {before rest : List In6Addr} {buffer_copy : PacketBuffer B}
    {pool : List (PacketBuffer B)} (point : s.point = .loop (it :: next :: rest))
    (nodes : remote_nodes = before ++ it :: next :: rest)
    (available : s.switch.available_rx_buffer_pool.pool = buffer_copy :: pool) :
    Moves remote_nodes buffer s (some (.taken buffer_copy)) { s with
      switch := { s.switch with available_rx_buffer_pool := ⟨pool⟩ }
      point := .copying it (next :: rest) buffer_copy }
  | copy {it next : In6Addr} {before rest : List In6Addr} {buffer_copy : PacketBuffer B}
    (point : s.point = .copying it (next :: rest) buffer_copy)
    (nodes : remote_nodes = before ++ it :: next :: rest) :
    Moves remote_nodes buffer s (some (.pushed it (buffer_copy.assign buffer)))
      { s with switch := afterPush s.switch it (buffer_copy.assign buffer), point := .loop (next :: rest) }

/-- A reader that is in order makes one of these moves, if it is not done and does not wait. -/
theorem Inv.moves (h : Inv remote_nodes buffer labels s) (hnodes : s.switch.remote_nodes = remote_nodes)
    (hnodup : remote_nodes.Nodup) (hne : remote_nodes ≠ []) :
    (∃ event s', s.next = some (event, s') ∧ Moves remote_nodes buffer s event s') ∨
      s.next = none ∧ (s.point = .done ∨ s.switch.available_rx_buffer_pool.pool = []) := by
  unfold Inv at h
  cases hpoint : s.point with
  | multicast =>
    simp only [hpoint] at h
    by_cases hsingle : ∃ node, remote_nodes = [node]
    · obtain ⟨node, hsingle⟩ := hsingle
      exact Or.inl ⟨_, _, next_single hpoint (hnodes.trans hsingle) h.1, .single hpoint hsingle⟩
    · obtain ⟨it, rest, hcons⟩ := List.exists_cons_of_ne_nil hne
      have hmany : ∀ node, s.switch.remote_nodes ≠ [node] := by
        intro node heq
        exact hsingle ⟨node, hnodes.symm.trans heq⟩
      have hnext := next_enter hpoint hmany
      rw [hnodes, hcons] at hnext
      exact Or.inl ⟨_, _, hnext, .enter hpoint hcons⟩
  | loop rest =>
    cases rest with
    | nil => exact Or.inl ⟨_, _, next_end hpoint, .finish hpoint⟩
    | cons it rest =>
      simp only [hpoint] at h
      obtain ⟨hbuffer, before, hsplit, -⟩ := h
      have hiff := eq_getLast_iff (hsplit ▸ hnodup)
      rw [← hsplit, ← hnodes] at hiff
      -- the last node gets the buffer itself, every other one a copy
      cases rest with
      | nil =>
        have hnext := next_last hpoint (hiff.mpr rfl) hbuffer
        exact Or.inl ⟨_, _, hnext, .last hpoint hsplit⟩
      | cons next rest =>
        have hlast : some it ≠ s.switch.remote_nodes.getLast? := fun heq => List.cons_ne_nil _ _ (hiff.mp heq)
        cases hpool : s.switch.available_rx_buffer_pool.pool with
        | nil => exact Or.inr ⟨next_wait hpoint hlast hpool, Or.inr rfl⟩
        | cons buffer_copy pool =>
          exact Or.inl ⟨_, _, next_take hpoint hlast hpool, .take hpoint hsplit hpool⟩
  | copying it rest buffer_copy =>
    simp only [hpoint] at h
    obtain ⟨hbuffer, hrest, before, -, hsplit, -⟩ := h
    obtain ⟨next, rest, rfl⟩ := List.exists_cons_of_ne_nil hrest
    exact Or.inl ⟨_, _, next_copy hpoint hbuffer, .copy hpoint hsplit⟩
  | done =>
    refine Or.inr ⟨?_, Or.inl rfl⟩
    simp only [next, hpoint]
  | crashed =>
    simp only [hpoint] at h

/-- **A move keeps the invariant.** -/
theorem Moves.inv (hmove : Moves remote_nodes buffer s event s') (h : Inv remote_nodes buffer labels s) :
    Inv remote_nodes buffer (labels ++ [event]) s' := by
  unfold Inv at h
  cases hmove with
  | single hpoint hnodes =>
    rw [hpoint] at h
    subst hnodes
    exact ⟨rfl, h.2.last⟩
  | enter hpoint hnodes =>
    rw [hpoint] at h
    exact ⟨h.1, [], hnodes, h.2.silent⟩
  | finish hpoint =>
    rw [hpoint] at h
    exact ⟨h.1, h.2.silent⟩
  | last hpoint hnodes =>
    rw [hpoint] at h
    obtain ⟨-, before, hsplit, hserved⟩ := h
    rw [hsplit]
    exact ⟨rfl, hserved.last⟩
  | take hpoint hnodes hpool =>
    rw [hpoint] at h
    obtain ⟨hbuffer, before, hsplit, hserved⟩ := h
    refine ⟨hbuffer, List.cons_ne_nil _ _, before, labels, hsplit, hserved, ?_, takenIn_concat _ _⟩
    exact (pushedIn_concat _ _).trans (List.append_nil _)
  | copy hpoint hnodes =>
    rw [hpoint] at h
    obtain ⟨hbuffer, -, before, labels', hsplit, hserved, hpushed, htaken⟩ := h
    exact ⟨hbuffer, before ++ [_], by rw [List.append_assoc]; exact hsplit, hserved.copied hpushed htaken⟩

theorem Moves.remote_nodes_eq (hmove : Moves remote_nodes buffer s event s') :
    s'.switch.remote_nodes = s.switch.remote_nodes := by
  cases hmove <;> rfl

theorem shared_afterPush (hnode : node ∈ s.switch.remote_nodes) (pointer : Option (PacketBuffer B))
    (point : BroadcastPoint B) :
    shared ⟨afterPush s.switch node buffer, s.others, pointer, point⟩ = s.shared + {buffer.id} := by
  have hsum := sum_push s.switch.encoder_pool buffer hnode
  rw [shared, shared, afterPush]
  simp only [hsum]
  abel

/-- The invariant is about what the reader does. -/
theorem Inv.silent (h : Inv remote_nodes buffer labels s) : Inv remote_nodes buffer (labels ++ [none]) s := by
  obtain ⟨htaken, hpushed⟩ := silent_concat labels
  unfold Inv at h ⊢
  cases hpoint : s.point with
  | multicast =>
    simp only [hpoint] at h
    exact ⟨h.1, h.2.silent⟩
  | loop rest =>
    cases rest with
    | nil =>
      simp only [hpoint] at h
      exact ⟨h.1, h.2.silent⟩
    | cons it rest =>
      simp only [hpoint] at h
      obtain ⟨hbuffer, before, hsplit, hserved⟩ := h
      exact ⟨hbuffer, before, hsplit, hserved.silent⟩
  | copying it rest buffer_copy =>
    simp only [hpoint, ← hpushed, ← htaken] at h
    exact h
  | done =>
    simp only [hpoint] at h
    exact ⟨h.1, h.2.silent⟩
  | crashed => simp only [hpoint] at h

/-- **A move loses no buffer** and puts none in two places. -/
theorem Moves.owned (hmove : Moves remote_nodes buffer s event s') (h : Inv remote_nodes buffer labels s)
    (hnodes : s.switch.remote_nodes = remote_nodes) : s'.owned = s.owned := by
  unfold Inv at h
  cases hmove with
  | @single node hpoint heq =>
    rw [hpoint] at h
    have hmem : node ∈ s.switch.remote_nodes := by
      rw [hnodes, heq]
      exact List.mem_singleton_self _
    rw [Broadcast.owned, shared_afterPush hmem, Broadcast.owned, h.1, hpoint]
    simp [copyBuffer]
  | enter hpoint => rw [Broadcast.owned, Broadcast.owned, hpoint]; rfl
  | finish hpoint => rw [Broadcast.owned, Broadcast.owned, hpoint]; rfl
  | @last it _ hpoint heq =>
    rw [hpoint] at h
    have hmem : it ∈ s.switch.remote_nodes := by
      rw [hnodes, heq]
      exact List.mem_append_right _ (List.mem_singleton_self _)
    rw [Broadcast.owned, shared_afterPush hmem, Broadcast.owned, h.1, hpoint]
    simp [copyBuffer]
  | take hpoint heq hpool =>
    rw [Broadcast.owned, Broadcast.owned, hpoint, shared, shared, hpool]
    simp only [copyBuffer, ids_cons, ids_nil]
    abel
  | @copy it _ _ _ _ hpoint heq =>
    have hmem : it ∈ s.switch.remote_nodes := by
      rw [hnodes, heq]
      exact List.mem_append_right _ List.mem_cons_self
    rw [Broadcast.owned, shared_afterPush hmem, Broadcast.owned, hpoint]
    simp only [copyBuffer, ids_cons, ids_nil, PacketBuffer.assign]
    abel

/-! ## Whole runs -/

/-- What holds in every state of a run. -/
structure InRun (remote_nodes : List In6Addr) (buffer : PacketBuffer B)
    (labels : List (Option (BroadcastEvent B))) (s : Broadcast B) : Prop where
  remote_nodes_eq : s.switch.remote_nodes = remote_nodes
  inv : Inv remote_nodes buffer labels s
  nodup : s.owned.Nodup

theorem InRun.step (h : InRun remote_nodes buffer labels s) (hnodup : remote_nodes.Nodup)
    (hne : remote_nodes ≠ []) (hstep : Step s event s') : InRun remote_nodes buffer (labels ++ [event]) s' := by
  cases hstep with
  | reader hnext =>
    rcases h.inv.moves h.remote_nodes_eq hnodup hne with ⟨event', s1, hnext', hmove⟩ | ⟨hnone, -⟩
    · rw [hnext'] at hnext
      cases hnext
      have howned := hmove.owned h.inv h.remote_nodes_eq
      exact ⟨hmove.remote_nodes_eq.trans h.remote_nodes_eq, hmove.inv h.inv, howned ▸ h.nodup⟩
    · rw [hnone] at hnext
      cases hnext
  | others hbuffer hpoint hnodes hkept =>
    have howned : s'.owned ≤ s.owned := by
      rw [Broadcast.owned, Broadcast.owned, hbuffer, hpoint]
      exact add_le_add_left (add_le_add_left hkept _) _
    refine ⟨hnodes.trans h.remote_nodes_eq, ?_, Multiset.nodup_of_le howned h.nodup⟩
    have hinv := h.inv.silent
    unfold Inv at hinv ⊢
    rw [hpoint, hbuffer]
    exact hinv

theorem Starts.inRun (h : Starts remote_nodes buffer s) : InRun remote_nodes buffer [] s := by
  refine ⟨h.remote_nodes, ?_, h.owned⟩
  unfold Inv
  rw [h.point]
  exact ⟨h.buffer, rfl, fun _ hmem => (by cases hmem), rfl⟩

/-! ## The branch without interruptions -/

/-- The loop of `PacketSwitch.forward` is a run of the reader. -/
theorem path_of_pushToAll {rest : List In6Addr} {it : In6Addr} {switch switch' : PacketSwitch B}
    {before : List In6Addr} {u : Unit} (others : Multiset Nat)
    (hsplit : switch.remote_nodes = before ++ it :: rest) (hnodup : (before ++ it :: rest).Nodup)
    (hrun : (PacketSwitch.pushToAll buffer (it :: rest)).run switch = .ok u switch') :
    ∃ labels, StepPath Step ⟨switch, others, some buffer, .loop (it :: rest)⟩ labels
      ⟨switch', others, none, .loop []⟩ := by
  induction rest generalizing it switch before with
  | nil =>
    rw [PacketSwitch.pushToAll, PacketSwitch.pushTo_run] at hrun
    cases hrun
    have hlast : some it = switch.remote_nodes.getLast? := by
      rw [hsplit]
      exact (eq_getLast_iff hnodup).mpr rfl
    exact ⟨_, .single (.reader (next_last rfl hlast rfl))⟩
  | cons next rest ih =>
    have hlast : some it ≠ switch.remote_nodes.getLast? := by
      rw [hsplit]
      exact fun heq => List.cons_ne_nil _ _ ((eq_getLast_iff hnodup).mp heq)
    have hsplit' : switch.remote_nodes = (before ++ [it]) ++ next :: rest := by
      rw [List.append_assoc]
      exact hsplit
    have hnodup' : ((before ++ [it]) ++ next :: rest).Nodup := by
      rw [List.append_assoc]
      exact hnodup
    rw [PacketSwitch.pushToAll, EStateM.run_bind, EStateM.run_get] at hrun
    on_goal 2 => exact List.cons_ne_nil next rest
    cases hpool : switch.available_rx_buffer_pool.pool with
    | nil =>
      simp only [BufferPool.pop_wait, hpool, EStateM.run_bind, Call.run_ofExcept_error] at hrun
      cases hrun
    | cons buffer_copy pool =>
      simp only [BufferPool.pop_wait, hpool, EStateM.run_bind, Call.run_ofExcept_ok, EStateM.run_set,
        PacketSwitch.pushTo_run] at hrun
      obtain ⟨labels, hpath⟩ := ih (by exact hsplit') hnodup' hrun
      exact ⟨_, .cons (.reader (next_take rfl hlast hpool)) (.cons (.reader (next_copy rfl rfl)) hpath)⟩

/-- **`PacketSwitch.forward`** of a frame for all is a run of the reader that nothing interrupts. -/
theorem path_of_forward {switch switch' : PacketSwitch B} {result : Option (PacketBuffer B)} (others : Multiset Nat)
    (hmulticast : isMulticast buffer.dst_mac = true) (hnodup : switch.remote_nodes.Nodup)
    (hne : switch.remote_nodes ≠ []) (hrun : (PacketSwitch.forward buffer).run switch = .ok result switch') :
    ∃ labels, StepPath Step ⟨switch, others, some buffer, .multicast⟩ labels ⟨switch', others, none, .done⟩ := by
  rw [PacketSwitch.forward, EStateM.run_bind, EStateM.run_get] at hrun
  simp only [hmulticast, if_true] at hrun
  obtain ⟨it, rest, hnodes⟩ := List.exists_cons_of_ne_nil hne
  obtain ⟨learning, nodes, pools, available, tap_read⟩ := switch
  obtain rfl : nodes = it :: rest := hnodes
  cases rest with
  | nil =>
    simp only [EStateM.run_bind, PacketSwitch.pushTo_run] at hrun
    cases hrun
    exact ⟨_, .single (.reader (next_single rfl rfl rfl))⟩
  | cons next rest =>
    obtain ⟨u, switch₁, hall, hdone⟩ := Call.run_bind_eq_ok.mp hrun
    cases hdone
    have henter := next_enter (s := ⟨⟨learning, it :: next :: rest, pools, available, tap_read⟩, others,
      some buffer, .multicast⟩) rfl fun node heq => by cases heq
    obtain ⟨labels, hpath⟩ := path_of_pushToAll others (List.nil_append _).symm hnodup hall
    exact ⟨_, .cons (.reader henter) (hpath.concat (.reader (next_end rfl)))⟩

/-! ## The replication -/

/-- **A broadcast in order.**  No buffer is in two places, and no null pointer is dereferenced; behind
the branch the frame is replicated exactly; what was pushed to a node is what its encoder pool received,
and no other move of the reader changes an encoder pool; before the end the reader only waits for the
available pool; and for a single node the fast path does what the loop does. -/
structure InOrder (remote_nodes : List In6Addr) (buffer : PacketBuffer B) (s₀ : Broadcast B)
    (labels : List (Option (BroadcastEvent B))) (s : Broadcast B) : Prop where
  owned : s.owned.Nodup
  not_crashed : s.point ≠ .crashed
  done : s.point = .done → s.buffer = none ∧ Replicated remote_nodes buffer labels
  received : Received s₀ labels s
  pools : ∀ event t, s.next = some (event, t) →
    t.switch.encoder_pool = poolsAfter s.switch.encoder_pool event
  waits : s.next = none → s.point = .done ∨ s.switch.available_rx_buffer_pool.pool = []
  fast_path : ∀ node, remote_nodes = [node] → s.point = .multicast → ∃ event t, s.next = some (event, t) ∧
    StepPath (fun s event t => s.next = some (event, t)) { s with point := .loop [node] } [event, none] t

/-- **Frames for all nodes are replicated exactly**, whatever the map of the nodes and the frame are and
whatever the other threads do meanwhile. -/
theorem inOrder_of_path {s₀ s : Broadcast B} {remote_nodes : List In6Addr} {buffer : PacketBuffer B}
    {labels : List (Option (BroadcastEvent B))} (hstart : Starts remote_nodes buffer s₀)
    (hnodup : remote_nodes.Nodup) (hne : remote_nodes ≠ []) (hrun : StepPath Step s₀ labels s) :
    InOrder remote_nodes buffer s₀ labels s := by
  have hin : InRun remote_nodes buffer ([] ++ labels) s :=
    hrun.invariant_prefix (I := InRun remote_nodes buffer) []
      (fun _ _ _ _ h hstep => h.step hnodup hne hstep) hstart.inRun
  rw [List.nil_append] at hin
  have hinv := hin.inv
  refine ⟨hin.nodup, ?_, ?_, received_of_path hrun, fun _ _ => next_pools, ?_, ?_⟩
  · intro hpoint
    unfold Inv at hinv
    rw [hpoint] at hinv
    exact hinv
  · intro hpoint
    unfold Inv at hinv
    rw [hpoint] at hinv
    exact hinv
  · intro hnone
    rcases hinv.moves hin.remote_nodes_eq hnodup hne with ⟨event, t, hnext, -⟩ | ⟨-, hwaits⟩
    · rw [hnone] at hnext
      cases hnext
    · exact hwaits
  · rintro node rfl hpoint
    unfold Inv at hinv
    rw [hpoint] at hinv
    have hlast : some node = s.switch.remote_nodes.getLast? := by
      rw [hin.remote_nodes_eq]
      rfl
    refine ⟨_, _, next_single hpoint hin.remote_nodes_eq hinv.1, ?_⟩
    exact .cons (next_last rfl hlast hinv.1) (.single (next_end rfl))

/-- Two nodes, and two buffers in the available pool. -/
theorem inOrder_of_path_two :
    let nodes : List In6Addr := [mappedAddr #v[192, 0, 2, 1], mappedAddr #v[192, 0, 2, 2]]
    let frame : PacketBuffer 14 := .ofData 2 (List.replicate 14 0xff) (by decide)
    ∃ (s₀ s : Broadcast 14) (labels : List (Option (BroadcastEvent 14))), Starts nodes frame s₀ ∧
      StepPath Step s₀ labels s ∧ s.point = .done ∧ InOrder nodes frame s₀ labels s := by
  intro nodes frame
  have hstart : Starts nodes frame ⟨.start nodes (PacketBuffer.fresh 0 2), 0, some frame, .multicast⟩ :=
    ⟨rfl, rfl, rfl, by decide⟩
  obtain ⟨result, switch, hrun, -⟩ := Call.exists_of_okAnd (p := fun _ : PacketSwitch 14 => true)
    (r := (PacketSwitch.forward frame).run (.start nodes (PacketBuffer.fresh 0 2))) (by decide +kernel)
  obtain ⟨labels, hpath⟩ := path_of_forward 0 (by decide) (by decide : nodes.Nodup) (by decide) hrun
  exact ⟨_, _, labels, hstart, hpath, rfl, inOrder_of_path hstart (by decide) (by decide) hpath⟩

end Runs
end Broadcast
end SuperEthd
