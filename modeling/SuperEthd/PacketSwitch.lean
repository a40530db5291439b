import SuperEthd.Learning
import SuperEthd.BufferPool
import SuperEthd.Encoder

/-! # Frames read from the TAP device

`PacketSwitch::tunnel_tap_read_handler`, one locked section at a time, beside the other threads: it
learns the source of a frame and then hands the buffer to the encoders.  The question is what it
does with a frame for one station, in any state that learning and expiry can bring about. -/
namespace SuperEthd

namespace PacketBuffer
variable {B : Nat}

/-- The destination in the `ethernet_header_t` laid over the storage, data or not.  Buffers are longer
than the header. -/
def dst_mac (b : PacketBuffer B) : FDBMACAddress := Vector.ofFn fun i => b.content.getD i 0

/-- The source in that header. -/
def src_mac (b : PacketBuffer B) : FDBMACAddress := Vector.ofFn fun i => b.content.getD (6 + i) 0

/-- `read` puts a frame at the start of the storage, and `setDataSize` takes over its length. -/
def readFrom (b : PacketBuffer B) (frame : List UInt8) (h : frame.length ≤ B) : PacketBuffer B :=
  { b.poke 0 frame (by rwa [Nat.zero_add]) with dataSize := frame.length, dataSize_le := h }

@[simp] theorem data_readFrom {b : PacketBuffer B} {frame : List UInt8} (h : frame.length ≤ B) :
    (b.readFrom frame h).data = frame := by
  have htake := take_overlay b.content 0 frame (by rw [Nat.zero_add, b.content_length]; exact h)
  rw [Nat.zero_add] at htake
  exact htake

/-- `*this = other`: everything but the place in memory. -/
def assign (b other : PacketBuffer B) : PacketBuffer B := { other with id := b.id }

/-- The header of data that holds it is read from the data. -/
theorem getD_content_of_data {b : PacketBuffer B} {data : List UInt8} (hdata : b.data = data) {i : Nat}
    (h : i < data.length) : b.content.getD i 0 = data.getD i 0 := by
  have hlt : i < b.dataSize := by rwa [← hdata, data_length] at h
  rw [← hdata, PacketBuffer.data, List.getD_eq_getElem?_getD, List.getD_eq_getElem?_getD,
    List.getElem?_take_of_lt hlt]

theorem dst_mac_of_data {b : PacketBuffer B} {data : List UInt8} (hdata : b.data = data)
    (h : 12 ≤ data.length) : b.dst_mac = Vector.ofFn fun i => data.getD i 0 :=
  congrArg Vector.ofFn (funext fun i => getD_content_of_data hdata (by omega))

theorem src_mac_of_data {b : PacketBuffer B} {data : List UInt8} (hdata : b.data = data)
    (h : 12 ≤ data.length) : b.src_mac = Vector.ofFn fun i => data.getD (6 + i) 0 :=
  congrArg Vector.ofFn (funext fun i => getD_content_of_data hdata (by omega))

end PacketBuffer

/-- Where the TAP reader is with its buffer. -/
inductive TapReader (B : Nat)
  /-- it is to read a frame; without a buffer it is to take one -/
  | reading (buffer : Option (PacketBuffer B))
  /-- it looked the source up in vain, and let the lock go -/
  | adding (buffer : PacketBuffer B)
  /-- the source is learned -/
  | forwarding (buffer : PacketBuffer B)

/-- What the TAP reader shares with the other threads.  A node is known by its key; `remote_nodes` are
the keys in the order of the map. -/
structure PacketSwitch (B : Nat) where
  learning : Learning In6Addr
  remote_nodes : List In6Addr
  encoder_pool : In6Addr → BufferPool (PacketBuffer B) B
  available_rx_buffer_pool : BufferPool (PacketBuffer B) B
  tap_read : TapReader B

namespace PacketSwitch
variable {B : Nat}

/-- No frame was read yet. -/
def start (remote_nodes : List In6Addr) (available : List (PacketBuffer B)) : PacketSwitch B :=
  ⟨Learning.start, remote_nodes, fun _ => ⟨[]⟩, ⟨available⟩, .reading none⟩

/-- `getEncoderPool()->push(std::move(buffer))`. -/
def pushTo (node : In6Addr) (buffer : PacketBuffer B) : EStateM Stop (PacketSwitch B) Unit := do
  let s ← get
  let pool ← Call.ofExcept ((s.encoder_pool node).push PacketBuffer.getBufferSize buffer)
  set { s with encoder_pool := Function.update s.encoder_pool node pool }

/-- The loop over the nodes: the last gets the buffer itself, the others copies of it. -/
def pushToAll (buffer : PacketBuffer B) : List In6Addr → EStateM Stop (PacketSwitch B) Unit
  | [] => return ()
  | [node] => pushTo node buffer
  | node :: nodes => do
    let s ← get
    let (buffer_copy, pool) ← Call.ofExcept s.available_rx_buffer_pool.pop_wait
    set { s with available_rx_buffer_pool := pool }
    pushTo node (buffer_copy.assign buffer)
    pushToAll buffer nodes

/-- What is done with a frame whose source is learned.  The buffer that is read into next is returned,
if it is this one again. -/
def forward (buffer : PacketBuffer B) : EStateM Stop (PacketSwitch B) (Option (PacketBuffer B)) := do
  let s ← get
  if isMulticast buffer.dst_mac then
    match s.remote_nodes with
    | [remote_node] => pushTo remote_node buffer
    | remote_nodes => pushToAll buffer remote_nodes
    return none
  else
    match s.learning.fdb.getRemoteNode buffer.dst_mac with
    | none => return some buffer
    | some fdb_entry =>
      let node ← deref fdb_entry.dest
      pushTo node buffer
      return none

/-- What the TAP writer learns is decoded from a node; the maintenance thread runs at any time. -/
def FromNodes (remote_nodes : List In6Addr) : LearningEvent In6Addr → Prop
  | .dropped _ dest | .missed _ dest | .sighted _ dest _ => ∃ node ∈ remote_nodes, dest = some node
  | .expired _ => True

/-- **The threads.**  A step of a run is labelled with what it does to the database, if anything. -/
inductive Step (expire_time : Int) :
    PacketSwitch B → Option (LearningEvent In6Addr) → PacketSwitch B → Prop
  | popped {s : PacketSwitch B} {buffer : PacketBuffer B} {pool : BufferPool (PacketBuffer B) B}
      (reader : s.tap_read = .reading none)
      (pop : s.available_rx_buffer_pool.pop_wait = .ok (buffer, pool)) :
      Step expire_time s none
        { s with available_rx_buffer_pool := pool, tap_read := .reading (some buffer) }
  | dropped {s : PacketSwitch B} {buffer : PacketBuffer B} {frame : List UInt8} {learning : Learning In6Addr}
      (reader : s.tap_read = .reading (some buffer)) (filled : frame ≠ []) (fits : frame.length ≤ B)
      (learn : Learning.Step expire_time s.learning
        (.dropped (buffer.readFrom frame fits).src_mac none) learning) :
      Step expire_time s (some (.dropped (buffer.readFrom frame fits).src_mac none))
        { s with learning := learning, tap_read := .reading (some (buffer.readFrom frame fits)) }
  | found {s : PacketSwitch B} {buffer : PacketBuffer B} {frame : List UInt8} {learning : Learning In6Addr}
      {now : Int} (reader : s.tap_read = .reading (some buffer)) (filled : frame ≠ [])
      (fits : frame.length ≤ B)
      (learn : Learning.Step expire_time s.learning
        (.sighted (buffer.readFrom frame fits).src_mac none now) learning) :
      Step expire_time s (some (.sighted (buffer.readFrom frame fits).src_mac none now))
        { s with learning := learning, tap_read := .forwarding (buffer.readFrom frame fits) }
  | missed {s : PacketSwitch B} {buffer : PacketBuffer B} {frame : List UInt8} {learning : Learning In6Addr}
      (reader : s.tap_read = .reading (some buffer)) (filled : frame ≠ []) (fits : frame.length ≤ B)
      (learn : Learning.Step expire_time s.learning
        (.missed (buffer.readFrom frame fits).src_mac none) learning) :
      Step expire_time s (some (.missed (buffer.readFrom frame fits).src_mac none))
        { s with learning := learning, tap_read := .adding (buffer.readFrom frame fits) }
  | added {s : PacketSwitch B} {buffer : PacketBuffer B} {learning : Learning In6Addr} {now : Int}
      (reader : s.tap_read = .adding buffer)
      (learn : Learning.Step expire_time s.learning (.sighted buffer.src_mac none now) learning) :
      Step expire_time s (some (.sighted buffer.src_mac none now))
        { s with learning := learning, tap_read := .forwarding buffer }
  | forwarded {s s' : PacketSwitch B} {buffer : PacketBuffer B} {next : Option (PacketBuffer B)}
      (reader : s.tap_read = .forwarding buffer) (run : (forward buffer).run s = .ok next s') :
      Step expire_time s none { s' with tap_read := .reading next }
  | others {s : PacketSwitch B} {event : LearningEvent In6Addr} {learning : Learning In6Addr}
      (from_nodes : FromNodes s.remote_nodes event)
      (learn : Learning.Step expire_time s.learning event learning) :
      Step expire_time s (some event) { s with learning := learning }
  /-- the encoder threads take from their pools and give buffers back -/
  | pools {s : PacketSwitch B} {encoder_pool : In6Addr → BufferPool (PacketBuffer B) B}
      {available_rx_buffer_pool : BufferPool (PacketBuffer B) B} :
      Step expire_time s none { s with
        encoder_pool := encoder_pool, available_rx_buffer_pool := available_rx_buffer_pool }

/-- **A frame for one station goes to the node that it was learned from**, and nowhere else. -/
structure Forwards (s : PacketSwitch B) (buffer : PacketBuffer B) : Prop where
  known : ∀ entry node, s.learning.fdb.getRemoteNode buffer.dst_mac = some entry →
    entry.dest = some node → node ∈ s.remote_nodes ∧
      (forward buffer).run s = .ok none { s with
        encoder_pool := Function.update s.encoder_pool node ⟨(s.encoder_pool node).pool ++ [buffer]⟩ }
  /-- the station is unknown or local: nothing is pushed, and the same buffer is read into next -/
  ignored : (∀ entry, s.learning.fdb.getRemoteNode buffer.dst_mac = some entry → entry.isLocal) →
    (forward buffer).run s = .ok (some buffer) s
  dereferences : ∀ s', (forward buffer).run s ≠ .error .nullPointer s'

variable {expire_time : Int} {s s' : PacketSwitch B} {buffer : PacketBuffer B} {node : In6Addr}

/-! ## The parts of the reader -/

theorem pushTo_run : (pushTo node buffer).run s = .ok () { s with
    encoder_pool := Function.update s.encoder_pool node ⟨(s.encoder_pool node).pool ++ [buffer]⟩ } := by
  simp only [pushTo, EStateM.run_bind, EStateM.run_get, BufferPool.push_packetBuffer,
    Call.run_ofExcept_ok, EStateM.run_set]

/-- What handing a buffer over leaves alone. -/
def SameTables (s s' : PacketSwitch B) : Prop :=
  s'.learning = s.learning ∧ s'.remote_nodes = s.remote_nodes

theorem pushToAll_tables (nodes : List In6Addr) :
    Call.Meets (SameTables s) (pushToAll buffer nodes) (fun _ => SameTables s) fun _ => SameTables s := by
  induction nodes with
  | nil => exact Call.Meets.pure (Q := fun _ => SameTables s) ()
  | cons node nodes ih =>
    cases nodes with
    | nil =>
      intro s1 h1
      rw [pushToAll, pushTo_run]
      exact h1
    | cons next nodes =>
      apply Call.Meets.bind_get
      intro s1 h1
      refine Call.Meets.bind_ofExcept (fun r _ => ?_) fun _ _ _ heq => heq ▸ h1
      refine .bind_set (.bind_returns pushTo_run ?_)
      exact ih.mono (fun s2 heq => heq ▸ h1) (fun _ _ h => h) fun _ _ h => h

theorem forward_tables :
    Call.Meets (· = s) (forward buffer) (fun _ => SameTables s) fun _ => SameTables s := by
  have hsame : SameTables s s := ⟨rfl, rfl⟩
  have hpush : ∀ node, Call.Meets (· = s) (pushTo node buffer) (fun _ => SameTables s)
      fun _ => SameTables s := fun node => .returns pushTo_run hsame
  have hpushAll : ∀ nodes, Call.Meets (· = s) (pushToAll buffer nodes) (fun _ => SameTables s)
      fun _ => SameTables s := fun nodes => (pushToAll_tables nodes).mono (fun _ heq => heq ▸ hsame)
        (fun _ _ h => h) fun _ _ h => h
  have hdone : ∀ next : Option (PacketBuffer B), Call.Meets (SameTables s)
      (pure next : EStateM Stop (PacketSwitch B) _) (fun _ => SameTables s) fun _ => SameTables s :=
    fun next => Call.Meets.pure (Q := fun _ => SameTables s) next
  apply Call.Meets.bind_get
  rintro s1 rfl
  refine .ite (fun _ => ?_) fun _ => ?_
  · cases s1.remote_nodes with
    | nil => exact (hpushAll []).bind fun _ => hdone none
    | cons node nodes =>
      cases nodes with
      | nil => exact (hpush node).bind fun _ => hdone none
      | cons next nodes => exact (hpushAll (node :: next :: nodes)).bind fun _ => hdone none
  · cases s1.learning.fdb.getRemoteNode buffer.dst_mac with
    | none => exact .returns rfl hsame
    | some entry =>
      cases hdest : entry.dest with
      | none =>
        rintro s2 rfl
        simp only [hdest]
        exact hsame
      | some node =>
        simp only [hdest]
        exact .bind_returns rfl ((hpush node).bind fun _ => hdone none)

/-! ## A frame for one station -/

section Unicast
variable (hunicast : isMulticast buffer.dst_mac = false) {entry : FDBEntry In6Addr}
include hunicast

theorem forward_unknown (hget : s.learning.fdb.getRemoteNode buffer.dst_mac = none) :
    (forward buffer).run s = .ok (some buffer) s := by
  simp only [forward, EStateM.run_bind, EStateM.run_get, hunicast, Bool.false_eq_true, if_false, hget,
    EStateM.run_pure]

theorem forward_remote (hget : s.learning.fdb.getRemoteNode buffer.dst_mac = some entry)
    (hdest : entry.dest = some node) : (forward buffer).run s = .ok none { s with
      encoder_pool := Function.update s.encoder_pool node ⟨(s.encoder_pool node).pool ++ [buffer]⟩ } := by
  simp only [forward, EStateM.run_bind, EStateM.run_get, hunicast, Bool.false_eq_true, if_false, hget,
    hdest, deref_some, pushTo_run, EStateM.run_pure]

/-- The comment says that a local target is ignored; only a missing entry is. -/
theorem forward_local (hget : s.learning.fdb.getRemoteNode buffer.dst_mac = some entry)
    (hlocal : entry.isLocal = true) : (forward buffer).run s = .error .nullPointer s := by
  have hdest : entry.dest = none := Option.isNone_iff_eq_none.mp hlocal
  simp only [forward, EStateM.run_bind, EStateM.run_get, hunicast, Bool.false_eq_true, if_false, hget,
    hdest, deref, Call.run_throw]

end Unicast

/-! ## Whole runs -/

/-- Every destination in the database is a node. -/
def Known (s : PacketSwitch B) : Prop := ∀ mac entry node,
  s.learning.fdb.get mac = some entry → entry.dest = some node → node ∈ s.remote_nodes

theorem Known.congr (h : Known s) (hsame : SameTables s s') : Known s' := by
  intro mac entry node hget hdest
  rw [hsame.1] at hget
  rw [hsame.2]
  exact h mac entry node hget hdest

theorem Known.learn (h : Known s) {event : LearningEvent In6Addr} {learning : Learning In6Addr}
    (hlearn : Learning.Step expire_time s.learning event learning)
    (hfrom : ∀ mac node now, event = .sighted mac (some node) now → node ∈ s.remote_nodes) :
    ∀ mac entry node, learning.fdb.get mac = some entry → entry.dest = some node →
      node ∈ s.remote_nodes := by
  intro mac entry node hget hdest
  rcases hlearn.dest_of_get hget with ⟨entry', hget', heq⟩ | ⟨now, hevent⟩
  · exact h mac entry' node hget' (heq.trans hdest)
  · exact hfrom mac node now (hdest ▸ hevent)

/-- What the TAP reader learns has no destination. -/
theorem Known.learnLocal (h : Known s) {event : LearningEvent In6Addr} {learning : Learning In6Addr}
    (hlearn : Learning.Step expire_time s.learning event learning)
    (hlocal : ∀ mac node now, event ≠ .sighted mac (some node) now) :
    ∀ mac entry node, learning.fdb.get mac = some entry → entry.dest = some node →
      node ∈ s.remote_nodes :=
  h.learn hlearn fun mac node now hevent => absurd hevent (hlocal mac node now)

theorem Known.step (h : Known s) {label : Option (LearningEvent In6Addr)}
    (hstep : Step expire_time s label s') : Known s' := by
  cases hstep with
  | popped => exact h
  | dropped _ _ _ learn => exact h.learnLocal learn fun _ _ _ heq => by cases heq
  | found _ _ _ learn => exact h.learnLocal learn fun _ _ _ heq => by cases heq
  | missed _ _ _ learn => exact h.learnLocal learn fun _ _ _ heq => by cases heq
  | added _ learn => exact h.learnLocal learn fun _ _ _ heq => by cases heq
  | forwarded _ run =>
    obtain ⟨hlearning, hnodes⟩ : SameTables s _ := forward_tables.ok rfl run
    exact h.congr ⟨hlearning, hnodes⟩
  | others from_nodes learn =>
    refine h.learn learn ?_
    rintro mac node now rfl
    obtain ⟨node', hmem, heq⟩ := from_nodes
    exact Option.some.inj heq ▸ hmem
  | pools => exact h

/-- **A frame for one station is forwarded as it should be** exactly when the database does not hold
that station as a local one. -/
theorem forwards_iff {remote_nodes : List In6Addr} {available : List (PacketBuffer B)}
    {labels : List (Option (LearningEvent In6Addr))}
    (hrun : StepPath (Step expire_time) (start remote_nodes available) labels s)
    (hunicast : isMulticast buffer.dst_mac = false) :
    Forwards s buffer ↔ ∀ entry, s.learning.fdb.getRemoteNode buffer.dst_mac = some entry →
      entry.isLocal = false := by
  have hknown : Known s := by
    refine hrun.invariant (I := Known) (fun _ _ _ h hstep => h.step hstep) ?_
    intro mac entry node hget
    cases hget
  constructor
  · intro hforwards entry hget
    rw [Bool.eq_false_iff]
    intro hlocal
    exact hforwards.dereferences s (forward_local hunicast hget hlocal)
  · intro hremote
    constructor
    · intro entry node hget hdest
      exact ⟨hknown _ _ _ hget hdest, forward_remote hunicast hget hdest⟩
    · intro hlocal
      cases hget : s.learning.fdb.getRemoteNode buffer.dst_mac with
      | none => exact forward_unknown hunicast hget
      | some entry => exact absurd (hlocal entry hget) (Bool.eq_false_iff.mp (hremote entry hget))
    · intro s' herror
      cases hget : s.learning.fdb.getRemoteNode buffer.dst_mac with
      | none =>
        rw [forward_unknown hunicast hget] at herror
        cases herror
      | some entry =>
        cases hdest : entry.dest with
        | none =>
          have hlocal : entry.isLocal = true := Option.isNone_iff_eq_none.mpr hdest
          exact absurd hlocal (Bool.eq_false_iff.mp (hremote entry hget))
        | some node =>
          rw [forward_remote hunicast hget hdest] at herror
          cases herror

variable (expire_time) in
/-- A new station behind a node is learned. -/
theorem exists_learned (hnode : node ∈ s.remote_nodes) {mac : FDBMACAddress}
    (hidle : s.learning.pending .tap_write = none) (hunicast : isMulticast mac = false)
    (hget : s.learning.fdb.get mac = none) (now : Int) :
    ∃ labels s', StepPath (Step expire_time) s labels s' ∧ s'.tap_read = s.tap_read ∧
      s'.learning.fdb = (s.learning.fdb.add mac (some node) now).2 ∧
      s'.learning.pending .tap_read = s.learning.pending .tap_read := by
  have hfrom : ∀ now, FromNodes s.remote_nodes (.sighted mac (some node) now) :=
    fun _ => ⟨node, hnode, rfl⟩
  have hfrom' : FromNodes s.remote_nodes (.missed mac (some node)) := ⟨node, hnode, rfl⟩
  exact ⟨_, _, .cons (.others hfrom' (.missed hidle hunicast hget)) (.cons
    (.others (hfrom now) (.added rfl)) (.nil _)), rfl, rfl, rfl⟩

variable (expire_time) in
/-- A frame from a new local station is read, and its source is learned. -/
theorem exists_forwarding (frame : List UInt8) (hreader : s.tap_read = .reading (some buffer))
    (hlong : 12 ≤ frame.length) (hfits : frame.length ≤ B)
    (hidle : s.learning.pending .tap_read = none) {dst src : FDBMACAddress}
    (hdst : (Vector.ofFn fun i => frame.getD i 0) = dst)
    (hsrc : (Vector.ofFn fun i => frame.getD (6 + i) 0) = src) (hunicast : isMulticast src = false)
    (hget : s.learning.fdb.get src = none) (now : Int) :
    ∃ labels s' buffer', StepPath (Step expire_time) s labels s' ∧
      s'.tap_read = .forwarding buffer' ∧ buffer'.data = frame ∧ buffer'.dst_mac = dst ∧
      s'.learning.fdb = (s.learning.fdb.add src none now).2 ∧
      s'.learning.pending .tap_read = none := by
  have hdata : (buffer.readFrom frame hfits).data = frame := PacketBuffer.data_readFrom hfits
  have hdst' := (PacketBuffer.dst_mac_of_data hdata hlong).trans hdst
  have hsrc' := (PacketBuffer.src_mac_of_data hdata hlong).trans hsrc
  have hfilled : frame ≠ [] := by
    rintro rfl
    cases hlong
  subst hsrc'
  exact ⟨_, _, _, .cons (.missed hreader hfilled hfits (.missed hidle hunicast hget)) (.cons
    (.added rfl (.added rfl)) (.nil _)), rfl, hdata, hdst', rfl, rfl⟩

/-- A frame from a local station to one that was learned from the only node. -/
theorem forwards_iff_remote :
    let node : In6Addr := mappedAddr #v[192, 0, 2, 1]
    let frame : List UInt8 := [0x02, 0, 0, 0, 0, 0x02, 0x02, 0, 0, 0, 0, 0x01, 8, 0]
    ∃ (s : PacketSwitch 1344) (buffer : PacketBuffer 1344)
      (labels : List (Option (LearningEvent In6Addr))),
      StepPath (Step 300) (start [node] (PacketBuffer.fresh 0 1)) labels s ∧
        s.tap_read = .forwarding buffer ∧ buffer.data = frame ∧
        (Forwards s buffer ↔ ∀ entry, s.learning.fdb.getRemoteNode buffer.dst_mac = some entry →
          entry.isLocal = false) := by
  intro node frame
  obtain ⟨s1, h1, hreader1, hlearning, hnodes⟩ : ∃ s1 : PacketSwitch 1344,
      Step 300 (start [node] (PacketBuffer.fresh 0 1)) none s1 ∧
        s1.tap_read = .reading (some (PacketBuffer.ofData 0 [] (Nat.zero_le 1344))) ∧
        s1.learning = Learning.start ∧ s1.remote_nodes = [node] :=
    ⟨_, .popped rfl rfl, rfl, rfl, rfl⟩
  obtain ⟨l2, s2, h2, hreader2, hfdb2, hidle⟩ :
      ∃ labels s', StepPath (Step 300) s1 labels s' ∧ s'.tap_read = s1.tap_read ∧
        s'.learning.fdb = (s1.learning.fdb.add #v[0x02, 0, 0, 0, 0, 0x02] (some node) 10000000).2 ∧
        s'.learning.pending .tap_read = s1.learning.pending .tap_read :=
    exists_learned 300 (hnodes ▸ List.mem_cons_self) (by rw [hlearning]; rfl) (by decide)
      (by rw [hlearning]; rfl) 10000000
  rw [hlearning] at hfdb2
  obtain ⟨l3, s3, buffer, h3, hreader3, hdata, hdst, -⟩ :=
    exists_forwarding 300 frame (hreader2.trans hreader1) (by decide) (by decide)
      (by rw [hidle, hlearning]; rfl) rfl rfl (by decide) (by rw [hfdb2]; decide) 20000000
  have hrun : StepPath (Step 300) (start [node] (PacketBuffer.fresh 0 1)) (none :: (l2 ++ l3)) s3 :=
    .cons h1 (h2.append h3)
  exact ⟨s3, buffer, _, hrun, hreader3, hdata, forwards_iff hrun (by rw [hdst]; decide)⟩

/-- **A frame from one local station to another**: the TAP device hands it over, the database holds
its destination as local, and the null destination is dereferenced. -/
theorem local_destination_dereferenced :
    let reply : List UInt8 := [0x02, 0, 0, 0, 0, 0x01, 0x02, 0, 0, 0, 0, 0x02, 8, 0]
    ∃ (s s' : PacketSwitch 1344) (buffer : PacketBuffer 1344)
      (labels : List (Option (LearningEvent In6Addr))),
      StepPath (Step 300) (start [mappedAddr #v[192, 0, 2, 1]] (PacketBuffer.fresh 0 1)) labels s ∧
        s.tap_read = .forwarding buffer ∧ buffer.data = reply ∧
        (forward buffer).run s = .error .nullPointer s' ∧ ¬Forwards s buffer := by
  intro reply
  obtain ⟨s1, h1, hreader1, hlearning⟩ : ∃ s1 : PacketSwitch 1344,
      Step 300 (start [mappedAddr #v[192, 0, 2, 1]] (PacketBuffer.fresh 0 1)) none s1 ∧
        s1.tap_read = .reading (some (PacketBuffer.ofData 0 [] (Nat.zero_le 1344))) ∧
        s1.learning = Learning.start := ⟨_, .popped rfl rfl, rfl, rfl⟩
  obtain ⟨l2, s2, first, h2, hreader2, -, hdst2, hfdb2, hidle2⟩ :=
    exists_forwarding 300 [0x02, 0, 0, 0, 0, 0x02, 0x02, 0, 0, 0, 0, 0x01, 8, 0] hreader1 (by decide)
      (by decide) (by rw [hlearning]; rfl) rfl rfl (by decide) (by rw [hlearning]; rfl) 10000000
  rw [hlearning] at hfdb2
  -- the destination is not known yet, so the reply is read into the same buffer
  have hunknown : (forward first).run s2 = .ok (some first) s2 :=
    forward_unknown (by rw [hdst2]; decide) (by rw [hfdb2, hdst2]; decide)
  obtain ⟨s3, h3, hreader3, hlearning3⟩ : ∃ s3, Step 300 s2 none s3 ∧
      s3.tap_read = .reading (some first) ∧ s3.learning = s2.learning :=
    ⟨_, .forwarded hreader2 hunknown, rfl, rfl⟩
  obtain ⟨l4, s4, buffer, h4, hreader4, hdata4, hdst4, hfdb4, -⟩ :=
    exists_forwarding 300 reply hreader3 (by decide) (by decide)
      (by rw [hlearning3]; exact hidle2) rfl rfl (by decide) (by rw [hlearning3, hfdb2]; decide)
      20000000
  rw [hlearning3, hfdb2] at hfdb4
  have hget : s4.learning.fdb.getRemoteNode buffer.dst_mac =
      some ⟨#v[0x02, 0, 0, 0, 0, 0x01], none, 10000000⟩ := by
    rw [hfdb4, hdst4]
    decide
  have hnull : (forward buffer).run s4 = .error .nullPointer s4 :=
    forward_local (by rw [hdst4]; decide) hget rfl
  exact ⟨s4, s4, buffer, _, .cons h1 (h2.append (.cons h3 h4)), hreader4, hdata4, hnull,
    fun hforwards => hforwards.dereferences s4 hnull⟩

end PacketSwitch
end SuperEthd
