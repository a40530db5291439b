import SuperEthd.OptionLoop
import SuperEthd.Ownership
import SuperEthd.SocketReader

/-! # What the socket reader hands to the decoders

The datagrams of a node are those that came from its address and pass the checks of the header, which
are made here and again by `decode`.  The invariant of the reader follows the packets of one
`recvmmsg` call through its loops: those before slot `i` are queued, those from `i` on are still in
their slots. -/
namespace SuperEthd

variable {B : Nat}

/-- The reader's checks of a datagram's length and header. -/
def HeaderPasses (host : ByteOrder) (data : List UInt8) : Prop :=
  PacketHeader.size + PacketHeaderOption.size ≤ data.length ∧
    PacketDecoder.HeaderValid (PacketHeader.read host fun k => data.getD k 0)

instance (host : ByteOrder) (data : List UInt8) : Decidable (HeaderPasses host data) :=
  inferInstanceAs (Decidable (_ ∧ _))

/-- **What is for the node**: a datagram from its address, if it passes the checks. -/
def GoesTo (cfg : ReaderConfig) (n : In6Addr) (p : UdpDatagram) : Prop :=
  get_key_from_sockaddr p.source = some n ∧ n ∈ cfg.remote_nodes ∧ HeaderPasses cfg.host p.data

instance (cfg : ReaderConfig) (n : In6Addr) : DecidablePred (GoesTo cfg n) :=
  fun _ => inferInstanceAs (Decidable (_ ∧ _))

/-- The datagrams that came in. -/
def arrivals (events : List ReaderEvent) : List UdpDatagram :=
  events.flatMap fun event => match event with
    | .received batch => batch
    | _ => []

/-- Those that went to the decoder pool of the node. -/
def pushedTo (n : In6Addr) (events : List ReaderEvent) : List UdpDatagram :=
  events.flatMap fun event => match event with
    | .pushed node_key datagrams => if node_key = n then datagrams else []
    | _ => []

theorem arrivals_concat (events : List ReaderEvent) (event : ReaderEvent) :
    arrivals (events ++ [event]) = arrivals events ++ arrivals [event] :=
  List.flatMap_append

theorem pushedTo_concat (n : In6Addr) (events : List ReaderEvent) (event : ReaderEvent) :
    pushedTo n (events ++ [event]) = pushedTo n events ++ pushedTo n [event] :=
  List.flatMap_append

theorem pushedTo_pushed (n m : In6Addr) (datagrams : List UdpDatagram) :
    pushedTo m [.pushed n datagrams] = if n = m then datagrams else [] :=
  List.append_nil _

namespace SocketReader
variable {cfg : ReaderConfig} {s s' : SocketReader B} {i j a num_received : Nat} {n : In6Addr}
  {p : UdpDatagram} {events : List ReaderEvent} {consumed : List UdpDatagram}

/-- **Slot `i` is ready for the kernel**: it has a buffer, which both its pointers refer to. -/
structure SlotReady (cfg : ReaderConfig) (s : SocketReader B) (i a : Nat) : Prop where
  buffer : (s.slots i).buffer = some a
  iov_base : (s.slots i).iov_base = a
  iov_len : (s.slots i).iov_len = B
  msg_name : (s.slots i).msg_name = a
  msg_namelen : cfg.name_size ≤ (s.slots i).msg_namelen

/-- The kernel put the datagram into slot `i`. -/
structure Holds (s : SocketReader B) (i : Nat) (p : UdpDatagram) : Prop where
  length_le : p.data.length ≤ B
  msg_len : (s.slots i).msg_len = p.data.length
  content : ∀ a, (s.slots i).buffer = some a →
    (s.heap a).content.take p.data.length = p.data ∧ (s.heap a).source = p.source

theorem Holds.congr (h : Holds s i p) (hslot : s'.slots i = s.slots i)
    (hheap : ∀ a, (s.slots i).buffer = some a → s'.heap a = s.heap a) : Holds s' i p := by
  refine ⟨h.length_le, hslot ▸ h.msg_len, fun a ha => ?_⟩
  rw [hslot] at ha
  rw [hheap a ha]
  exact h.content a ha

/-! ## The checks -/

/-- The four checks of the header let pass what is valid. -/
theorem headerChecks_run (header : PacketHeader) (rest : EStateM Stop (SocketReader B) Bool) :
    (do
      if header.ver > SETH_PACKET_HEADER_VERSION_V1 then return false
      if header.reserved ≠ 0 then return false
      if header.format ≠ PacketHeaderFormat.ENCAPSULATED then return false
      if header.channel ≠ 0 then return false
      rest : EStateM Stop (SocketReader B) Bool).run s =
      if PacketDecoder.HeaderValid header then rest.run s else .ok false s := by
  by_cases hver : header.ver > SETH_PACKET_HEADER_VERSION_V1
  · rw [if_pos hver, if_neg fun h => absurd h.1 (Nat.not_le_of_gt hver)]
    rfl
  by_cases hres : header.reserved ≠ 0
  · rw [if_neg hver, if_pos hres, if_neg fun h => absurd h.2.1 hres]
    rfl
  by_cases hformat : header.format ≠ PacketHeaderFormat.ENCAPSULATED
  · rw [if_neg hver, if_neg hres, if_pos hformat, if_neg fun h => absurd h.2.2.1 hformat]
    rfl
  by_cases hchannel : header.channel ≠ 0
  · rw [if_neg hver, if_neg hres, if_neg hformat, if_pos hchannel,
      if_neg fun h => absurd h.2.2.2 hchannel]
    rfl
  · rw [if_neg hver, if_neg hres, if_neg hformat, if_neg hchannel, if_pos]
    exact ⟨Nat.le_of_not_lt hver, of_not_not hres, of_not_not hformat, of_not_not hchannel⟩

/-- The checks of a datagram from a node, on a buffer that takes its length over. -/
theorem handle_known (cfg : ReaderConfig) (hslot : (s.slots i).buffer = some a) (h : Holds s i p)
    {n : In6Addr} (hkey : get_key_from_sockaddr p.source = some n) (hmem : n ∈ cfg.remote_nodes) :
    ∃ b : PacketBuffer B, b.datagram = p ∧ (handle cfg i).run s =
      if HeaderPasses cfg.host p.data then
        .ok true { s with
          heap := Function.update s.heap a b
          received_buffers := s.received_buffers.push_back n a
          slots := Function.update s.slots i { s.slots i with buffer := none } }
      else .ok false { s with heap := Function.update s.heap a b } := by
  obtain ⟨hcontent, hsource⟩ := h.content a hslot
  obtain ⟨b, hset, hbcontent, -, hbsize⟩ := PacketBuffer.setDataSize_ok (s.heap a) h.length_le
  have hdata : b.data = p.data := by rw [PacketBuffer.data, hbsize, hbcontent, hcontent]
  have hbsource : b.source = p.source := by
    unfold PacketBuffer.setDataSize at hset
    rw [dif_pos h.length_le] at hset
    rw [← Except.ok.inj hset]
    exact hsource
  refine ⟨b, by rw [PacketBuffer.datagram, hdata, hbsource], ?_⟩
  simp only [handle, EStateM.run_bind, EStateM.run_get, hslot, deref_some, hsource, hkey, hmem,
    not_true, if_false, h.msg_len, hset, Call.run_ofExcept_ok, EStateM.run_set, hbsize]
  by_cases hshort : p.data.length < PacketHeader.size + PacketHeaderOption.size
  · rw [if_pos hshort, if_neg fun hpasses => Nat.not_le_of_gt hshort hpasses.1]
    rfl
  rw [if_neg hshort]
  -- the header is within the data, so the buffer reads it as the datagram has it
  have hheader : (PacketHeader.read cfg.host fun k => b.content.getD k 0) =
      PacketHeader.read cfg.host fun k => p.data.getD k 0 := by
    apply PacketHeader.read_congr
    intro k hk
    have hlt : k < b.dataSize := by
      simp only [PacketHeader.size, PacketHeaderOption.size] at hshort
      omega
    rw [← hdata]
    exact (PacketBuffer.byteAt_of_lt hlt : b.byteAt (fun _ => 0) k = b.data.getD k 0)
  refine (headerChecks_run _ _).trans ?_
  rw [hheader]
  by_cases hvalid : PacketDecoder.HeaderValid (PacketHeader.read cfg.host fun k => p.data.getD k 0)
  · rw [if_pos hvalid, if_pos ⟨Nat.le_of_not_lt hshort, hvalid⟩, ← h.msg_len]
    rfl
  · rw [if_neg hvalid, if_neg fun hpasses => hvalid hpasses.2]

/-- **The body of the loop** queues the buffer of a datagram that is for a node, which then holds just
the datagram; any other stays in its slot. -/
theorem handle_run (cfg : ReaderConfig) (hslot : (s.slots i).buffer = some a) (h : Holds s i p) :
    (∃ n b, GoesTo cfg n p ∧ b.datagram = p ∧ (handle cfg i).run s = .ok true { s with
      heap := Function.update s.heap a b
      received_buffers := s.received_buffers.push_back n a
      slots := Function.update s.slots i { s.slots i with buffer := none } }) ∨
    (∀ n, ¬GoesTo cfg n p) ∧ ∃ heap, (∀ a' ≠ a, heap a' = s.heap a') ∧
      (handle cfg i).run s = .ok false { s with heap := heap } := by
  obtain ⟨-, hsource⟩ := h.content a hslot
  cases hkey : get_key_from_sockaddr p.source with
  | none =>
    refine Or.inr ⟨fun n hn => ?_, s.heap, fun _ _ => rfl, ?_⟩
    · rw [GoesTo, hkey] at hn
      cases hn.1
    · simp only [handle, EStateM.run_bind, EStateM.run_get, hslot, deref_some, hsource, hkey,
        EStateM.run_pure]
  | some n =>
    have hgoes : ∀ m, GoesTo cfg m p → n ∈ cfg.remote_nodes ∧ HeaderPasses cfg.host p.data := by
      intro m hm
      rw [GoesTo, hkey] at hm
      obtain rfl := Option.some.inj hm.1
      exact hm.2
    by_cases hmem : n ∈ cfg.remote_nodes
    · obtain ⟨b, hdatagram, hrun⟩ := handle_known cfg hslot h hkey hmem
      by_cases hpasses : HeaderPasses cfg.host p.data
      · rw [if_pos hpasses] at hrun
        exact Or.inl ⟨n, b, ⟨hkey, hmem, hpasses⟩, hdatagram, hrun⟩
      · rw [if_neg hpasses] at hrun
        exact Or.inr ⟨fun m hm => hpasses (hgoes m hm).2, _,
          fun a' hne => Function.update_of_ne hne _ _, hrun⟩
    · refine Or.inr ⟨fun m hm => hmem (hgoes m hm).1, s.heap, fun _ _ => rfl, ?_⟩
      simp only [handle, EStateM.run_bind, EStateM.run_get, hslot, deref_some, hsource, hkey, hmem,
        not_false_eq_true, if_true, EStateM.run_pure]

/-! ## The kernel fills the slots -/

/-- The two states agree on who has which buffer. -/
structure SameOwners (s s' : SocketReader B) : Prop where
  buffer : ∀ i, (s'.slots i).buffer = (s.slots i).buffer
  received_buffers : s'.received_buffers = s.received_buffers
  available_tx_buffer_pool : s'.available_tx_buffer_pool = s.available_tx_buffer_pool
  decoder_pool : s'.decoder_pool = s.decoder_pool
  elsewhere : s'.elsewhere = s.elsewhere

theorem SameOwners.trans {s1 s2 s3 : SocketReader B} (h : SameOwners s1 s2) (h' : SameOwners s2 s3) :
    SameOwners s1 s3 :=
  ⟨fun i => (h'.buffer i).trans (h.buffer i), h'.2.trans h.2, h'.3.trans h.3, h'.4.trans h.4,
    h'.5.trans h.5⟩

theorem SameOwners.owned_eq (h : SameOwners s s') : owned cfg s' = owned cfg s := by
  rw [owned, owned, shared, shared, slotBuffers_congr h.buffer, h.received_buffers,
    h.available_tx_buffer_pool, h.decoder_pool, h.elsewhere]

variable (cfg) in
theorem fill_slots_self (s : SocketReader B) (i : Nat) (p : UdpDatagram) : (s.fill cfg i p).slots i =
    { s.slots i with msg_namelen := p.source.size, msg_len := p.data.length } :=
  Function.update_self ..

variable (cfg) in
theorem fill_slots_of_ne (s : SocketReader B) (p : UdpDatagram) (h : j ≠ i) : (s.fill cfg i p).slots j = s.slots j :=
  Function.update_of_ne h _ _

variable (cfg) in
theorem fill_sameOwners (s : SocketReader B) (i : Nat) (p : UdpDatagram) :
    SameOwners s (s.fill cfg i p) := by
  refine ⟨fun j => ?_, rfl, rfl, rfl, rfl⟩
  by_cases hj : j = i
  · rw [hj, fill_slots_self]
  · rw [fill_slots_of_ne cfg s p hj]

/-- A filled slot is ready for the next call: addresses of one family have one size. -/
theorem SlotReady.fill (h : SlotReady cfg s j a) (hfamily : p.source.size = cfg.name_size) :
    SlotReady cfg (s.fill cfg i p) j a := by
  by_cases hj : j = i
  · subst hj
    have hslot := fill_slots_self cfg s j p
    exact ⟨by rw [hslot]; exact h.buffer, by rw [hslot]; exact h.iov_base,
      by rw [hslot]; exact h.iov_len, by rw [hslot]; exact h.msg_name, by rw [hslot, hfamily]⟩
  · have hslot := fill_slots_of_ne cfg s p hj
    exact ⟨hslot ▸ h.buffer, hslot ▸ h.iov_base, hslot ▸ h.iov_len, hslot ▸ h.msg_name,
      hslot ▸ h.msg_namelen⟩

theorem fill_heap (h : SlotReady cfg s i a) {b : Nat} (hne : b ≠ a) :
    (s.fill cfg i p).heap b = s.heap b := by
  simp only [fill, h.iov_base, h.msg_name, Function.update_of_ne hne]

theorem fill_holds (h : SlotReady cfg s i a) (hlen : p.data.length ≤ B)
    (hfamily : p.source.size = cfg.name_size) : Holds (s.fill cfg i p) i p := by
  have hname : p.source.size ≤ (s.slots i).msg_namelen := hfamily ▸ h.msg_namelen
  have hheap : (s.fill cfg i p).heap a = ((s.heap a).receive p.data).setSource p.source := by
    simp only [fill, h.iov_base, h.msg_name, Function.update_self, if_pos hname]
  refine ⟨hlen, by rw [fill_slots_self], fun b hb => ?_⟩
  rw [(fill_sameOwners cfg s i p).buffer i, h.buffer] at hb
  obtain rfl := Option.some.inj hb
  rw [hheap]
  exact ⟨PacketBuffer.take_receive _ hlen, rfl⟩

/-- What is in another slot stays there. -/
theorem Holds.fill {q : UdpDatagram} (h : Holds s j q) (hnodup : (owned cfg s).Nodup)
    (hi : i < SETH_MAX_RECVMM_MESSAGES) (hj : j < SETH_MAX_RECVMM_MESSAGES) (hne : j ≠ i)
    (hready : SlotReady cfg s i a) : Holds (s.fill cfg i p) j q := by
  refine h.congr (fill_slots_of_ne cfg s p hne) fun b hb => fill_heap hready ?_
  rintro rfl
  exact hne (slot_unique hnodup hj hi hb hready.buffer)

/-- Every slot is ready. -/
def AllReady (cfg : ReaderConfig) (s : SocketReader B) : Prop :=
  ∀ i < SETH_MAX_RECVMM_MESSAGES, ∃ a, SlotReady cfg s i a

/-- **One call of `recvmmsg`**: each datagram is in a slot of its own. -/
theorem recvmmsg_holds {batch : List UdpDatagram} (hready : AllReady cfg s)
    (hnodup : (owned cfg s).Nodup) (hcount : i + batch.length ≤ SETH_MAX_RECVMM_MESSAGES)
    (hlen : ∀ p ∈ batch, p.data.length ≤ B) (hfamily : ∀ p ∈ batch, p.source.size = cfg.name_size) :
    AllReady cfg (recvmmsg cfg s i batch) ∧ SameOwners s (recvmmsg cfg s i batch) ∧
      (∀ j q, j < i → Holds s j q → Holds (recvmmsg cfg s i batch) j q) ∧
      ∀ j (h : j < batch.length), Holds (recvmmsg cfg s i batch) (i + j) batch[j] := by
  induction batch generalizing s i with
  | nil =>
    refine ⟨hready, ⟨fun _ => rfl, rfl, rfl, rfl, rfl⟩, fun _ _ _ h => h, fun j h => ?_⟩
    exact absurd h (Nat.not_lt_zero j)
  | cons p batch ih =>
    rw [List.length_cons] at hcount
    have hi : i < SETH_MAX_RECVMM_MESSAGES := by omega
    obtain ⟨a, ha⟩ := hready i hi
    have hp := hlen p List.mem_cons_self
    have hpf := hfamily p List.mem_cons_self
    have hready1 : AllReady cfg (s.fill cfg i p) := by
      intro j hj
      obtain ⟨b, hb⟩ := hready j hj
      exact ⟨b, hb.fill hpf⟩
    have hsame := fill_sameOwners cfg s i p
    obtain ⟨h1, h2, h3, h4⟩ := ih (i := i + 1) hready1 (hsame.owned_eq ▸ hnodup) (by omega)
      (fun q hq => hlen q (List.mem_cons_of_mem _ hq)) fun q hq => hfamily q (List.mem_cons_of_mem _ hq)
    refine ⟨h1, hsame.trans h2, fun j q hj hq => ?_, fun j hj => ?_⟩
    · have hj' : j < SETH_MAX_RECVMM_MESSAGES := by omega
      exact h3 j q (by omega) (hq.fill hnodup hi hj' (by omega) ha)
    · cases j with
      | zero => exact h3 i p (by omega) (fill_holds ha hp hpf)
      | succ j =>
        have hj' : j < batch.length := Nat.lt_of_succ_lt_succ hj
        have hnext := h4 j hj'
        rwa [Nat.add_assoc, Nat.add_comm 1 j] at hnext

/-! ## The invariant -/

/-- What was pushed to the nodes, then what is queued for them, is what of `consumed` is for them. -/
def Distributed (cfg : ReaderConfig) (pushed : In6Addr → List UdpDatagram) (s : SocketReader B)
    (consumed : List UdpDatagram) : Prop :=
  ∀ n, pushed n ++ (s.received_buffers.queue n).map (fun a => (s.heap a).datagram) =
    consumed.filter (GoesTo cfg n)

/-- In the round of a batch, whose packets before slot `i` are done with and whose others are in their
slots. -/
structure InRound (cfg : ReaderConfig) (arrived : List UdpDatagram)
    (pushed : In6Addr → List UdpDatagram) (s : SocketReader B) (i num_received : Nat) : Prop where
  batch : ∃ before batch, arrived = before ++ batch ∧ batch.length = num_received ∧
    Distributed cfg pushed s (before ++ batch.take i) ∧
    ∀ j (h : j < batch.length), i ≤ j → Holds s j batch[j]

/-- No packet is on its way through the reader. -/
structure Settled (cfg : ReaderConfig) (arrived : List UdpDatagram)
    (pushed : In6Addr → List UdpDatagram) (s : SocketReader B) : Prop where
  distributed : Distributed cfg pushed s arrived
  queue : ∀ n, s.received_buffers.queue n = []

/-- What holds where the reader is. -/
def PhaseOk (cfg : ReaderConfig) (arrived : List UdpDatagram) (pushed : In6Addr → List UdpDatagram)
    (s : SocketReader B) : ReaderPhase → Prop
  | .filling i => (∀ j < i, ∃ a, SlotReady cfg s j a) ∧ Settled cfg arrived pushed s
  | .receiving | .stopped => AllReady cfg s ∧ Settled cfg arrived pushed s
  | .handling i num_received => i ≤ num_received ∧ num_received ≤ SETH_MAX_RECVMM_MESSAGES ∧
      AllReady cfg s ∧ InRound cfg arrived pushed s i num_received
  | .replenishing i num_received => i < num_received ∧ num_received ≤ SETH_MAX_RECVMM_MESSAGES ∧
      (∀ j < SETH_MAX_RECVMM_MESSAGES, j ≠ i → ∃ a, SlotReady cfg s j a) ∧
      ((s.slots i).iov_len = B ∧ cfg.name_size ≤ (s.slots i).msg_namelen) ∧
      InRound cfg arrived pushed s (i + 1) num_received
  | .pushing node_keys => AllReady cfg s ∧ Distributed cfg pushed s arrived ∧
      ∀ n ∉ node_keys, s.received_buffers.queue n = []

/-- **The invariant**: no buffer is in two places, and what holds where the reader is. -/
structure Inv (cfg : ReaderConfig) (arrived : List UdpDatagram) (pushed : In6Addr → List UdpDatagram)
    (s : SocketReader B) : Prop where
  nodup : (owned cfg s).Nodup
  phase : PhaseOk cfg arrived pushed s s.phase

variable {arrived : List UdpDatagram} {pushed : In6Addr → List UdpDatagram} {k : Nat}

/-- Nothing that is queued was touched. -/
theorem Distributed.congr (h : Distributed cfg pushed s consumed)
    (hqueue : s'.received_buffers = s.received_buffers)
    (hheap : ∀ a ∈ s.received_buffers.all, s'.heap a = s.heap a) :
    Distributed cfg pushed s' consumed := by
  intro n
  rw [← h n, hqueue]
  congr 1
  apply List.map_congr_left
  intro a ha
  rw [hheap a (mem_all_of_mem_queue ha)]

theorem Settled.congr (h : Settled cfg arrived pushed s)
    (hqueue : s'.received_buffers = s.received_buffers)
    (hheap : ∀ a ∈ s.received_buffers.all, s'.heap a = s.heap a) :
    Settled cfg arrived pushed s' :=
  ⟨h.distributed.congr hqueue hheap, hqueue ▸ h.queue⟩

/-- Nothing that is queued, and no slot with a packet to come, was touched. -/
theorem InRound.congr (h : InRound cfg arrived pushed s k num_received)
    (hqueue : s'.received_buffers = s.received_buffers)
    (hheap : ∀ a ∈ s.received_buffers.all, s'.heap a = s.heap a)
    (hslots : ∀ j, k ≤ j → j < num_received → s'.slots j = s.slots j ∧
      ∀ a, (s.slots j).buffer = some a → s'.heap a = s.heap a) :
    InRound cfg arrived pushed s' k num_received := by
  obtain ⟨before, batch, harrived, hlen, hd, hholds⟩ := h.batch
  refine ⟨before, batch, harrived, hlen, hd.congr hqueue hheap, fun j hj hk => ?_⟩
  obtain ⟨hslot, hj'⟩ := hslots j hk (hlen ▸ hj)
  exact (hholds j hj hk).congr hslot hj'

theorem SlotReady.congr (h : SlotReady cfg s i a) (hslot : s'.slots i = s.slots i) :
    SlotReady cfg s' i a :=
  ⟨hslot ▸ h.buffer, hslot ▸ h.iov_base, hslot ▸ h.iov_len, hslot ▸ h.msg_name,
    hslot ▸ h.msg_namelen⟩

/-! ## Moving buffers -/

/-- `pop_wait` gives the buffer to a slot. -/
theorem owned_popped {pool : BufferPool Nat B} {slot : ReceiveSlot} (phase : ReaderPhase)
    (hi : i < SETH_MAX_RECVMM_MESSAGES) (hpop : s.available_tx_buffer_pool.pop_wait = .ok (a, pool))
    (hslot : slot.buffer = some a) :
    owned cfg { s with
      available_tx_buffer_pool := pool
      slots := Function.update s.slots i slot
      phase := phase } ≤ owned cfg s := by
  have hpool : (s.available_tx_buffer_pool.pool : Multiset Nat) = {a} + ↑pool.pool := by
    rw [BufferPool.pool_of_pop_wait hpop]
    rfl
  have hupdate := slotBuffers_update s.slots slot hi
  rw [hslot, Option.toList_some, Multiset.coe_singleton] at hupdate
  refine le_of_le_of_eq (Multiset.le_add_right _ ↑(s.slots i).buffer.toList) ?_
  simp only [owned, shared, hpool]
  calc slotBuffers (Function.update s.slots i slot) + s.received_buffers.all +
        (↑pool.pool + ∑ n ∈ cfg.remote_nodes, ↑(s.decoder_pool n).pool + ↑s.elsewhere) +
        ↑(s.slots i).buffer.toList
      = slotBuffers (Function.update s.slots i slot) + ↑(s.slots i).buffer.toList +
        s.received_buffers.all +
        (↑pool.pool + ∑ n ∈ cfg.remote_nodes, ↑(s.decoder_pool n).pool + ↑s.elsewhere) := by abel
    _ = slotBuffers s.slots + s.received_buffers.all +
        ({a} + ↑pool.pool + ∑ n ∈ cfg.remote_nodes, ↑(s.decoder_pool n).pool + ↑s.elsewhere) := by
      rw [hupdate]
      abel

/-- The buffer of a slot is queued. -/
theorem owned_queued (heap : Nat → PacketBuffer B) (n : In6Addr) {slot : ReceiveSlot} (phase : ReaderPhase)
    (hi : i < SETH_MAX_RECVMM_MESSAGES) (hbuffer : (s.slots i).buffer = some a)
    (hslot : slot.buffer = none) :
    owned cfg { s with
      heap := heap
      received_buffers := s.received_buffers.push_back n a
      slots := Function.update s.slots i slot
      phase := phase } = owned cfg s := by
  have hupdate := slotBuffers_update s.slots slot hi
  rw [hslot, hbuffer, Option.toList_some, Option.toList_none, Multiset.coe_singleton,
    Multiset.coe_nil, add_zero] at hupdate
  simp only [owned, shared, ReceivedBuffers.all_push_back, ← hupdate]
  abel

/-- The queue of a node goes to its decoder pool. -/
theorem owned_pushed (phase : ReaderPhase) :
    owned cfg { s with
      decoder_pool := Function.update s.decoder_pool n
        ⟨(s.decoder_pool n).pool ++ s.received_buffers.queue n⟩
      received_buffers := s.received_buffers.clear n
      phase := phase } ≤ owned cfg s := by
  have hall := s.received_buffers.all_clear n
  by_cases hn : n ∈ cfg.remote_nodes
  · have hsum := PointUpdate.sum_add (fun pool : BufferPool Nat B => (pool.pool : Multiset Nat))
      s.decoder_pool hn ⟨(s.decoder_pool n).pool ++ s.received_buffers.queue n⟩
    simp only [← Multiset.coe_add] at hsum
    rw [add_comm (↑(s.decoder_pool n).pool : Multiset Nat) ↑(s.received_buffers.queue n), ← add_assoc]
      at hsum
    apply le_of_eq
    simp only [owned, shared, add_right_cancel hsum, ← hall]
    abel
  · have hsum := PointUpdate.sum_of_notMem (fun pool : BufferPool Nat B => (pool.pool : Multiset Nat))
      s.decoder_pool hn ⟨(s.decoder_pool n).pool ++ s.received_buffers.queue n⟩
    refine le_of_le_of_eq (Multiset.le_add_right _ ↑(s.received_buffers.queue n)) ?_
    simp only [owned, shared, hsum, ← hall]
    abel

/-! ## One step -/

/-- A buffer was popped for slot `i`; the others are as they were. -/
theorem readyBelow_update {slot : ReceiveSlot} (hslots : s'.slots = Function.update s.slots i slot)
    (hready : ∀ j < k, j ≠ i → ∃ b, SlotReady cfg s j b) (hbuffer : slot.buffer = some a)
    (hbase : slot.iov_base = a) (hlen : slot.iov_len = B) (hname : slot.msg_name = a)
    (hnamelen : cfg.name_size ≤ slot.msg_namelen) : ∀ j < k, ∃ b, SlotReady cfg s' j b := by
  intro j hj
  by_cases hji : j = i
  · have hslot : s'.slots j = slot := by rw [hslots, hji, Function.update_self]
    exact ⟨a, hslot ▸ hbuffer, hslot ▸ hbase, hslot ▸ hlen, hslot ▸ hname, hslot ▸ hnamelen⟩
  · obtain ⟨b, hb⟩ := hready j hj hji
    exact ⟨b, hb.congr (by rw [hslots, Function.update_of_ne hji])⟩

/-- **A packet is queued** for the node it is for. -/
theorem Distributed.queued {b : PacketBuffer B} {slots : Nat → ReceiveSlot}
    (h : Distributed cfg pushed s consumed) (phase : ReaderPhase) (hgoes : GoesTo cfg n p)
    (hb : b.datagram = p) (ha : a ∉ s.received_buffers.all) :
    Distributed cfg pushed { s with
      heap := Function.update s.heap a b
      received_buffers := s.received_buffers.push_back n a
      slots := slots
      phase := phase } (consumed ++ [p]) := by
  intro m
  have hold : ((s.received_buffers.queue m).map fun c => (Function.update s.heap a b c).datagram) =
      (s.received_buffers.queue m).map fun c => (s.heap c).datagram := by
    apply List.map_congr_left
    intro c hc
    rw [Function.update_of_ne]
    rintro rfl
    exact ha (mem_all_of_mem_queue hc)
  show pushed m ++ ((s.received_buffers.push_back n a).queue m).map
    (fun c => (Function.update s.heap a b c).datagram) = _
  rw [ReceivedBuffers.queue_push_back, List.map_append, hold, ← List.append_assoc, h m,
    List.filter_append]
  congr 1
  by_cases hm : n = m
  · subst hm
    rw [if_pos rfl, List.map_singleton, Function.update_self, hb, List.filter_cons,
      if_pos (decide_eq_true hgoes), List.filter_nil]
  · have hnot : ¬GoesTo cfg m p := by
      intro hm'
      exact hm (Option.some.inj (hgoes.1.symm.trans hm'.1))
    rw [if_neg hm, List.map_nil, List.filter_cons_of_neg (by rw [decide_eq_true_eq]; exact hnot),
      List.filter_nil]

/-- A packet that is for no node is left out. -/
theorem filter_goesTo_none (hnone : ∀ n, ¬GoesTo cfg n p) :
    (consumed ++ [p]).filter (GoesTo cfg n) = consumed.filter (GoesTo cfg n) := by
  rw [List.filter_append, List.filter_cons_of_neg (by rw [decide_eq_true_eq]; exact hnone n),
    List.filter_nil, List.append_nil]

/-- `recvmmsg` starts a round. -/
theorem Inv.received {batch : List UdpDatagram} (h : Inv cfg arrived pushed s)
    (phase : s.phase = .receiving) (count : batch.length ≤ SETH_MAX_RECVMM_MESSAGES)
    (fits : ∀ i (h : i < batch.length), batch[i].data.length ≤ (s.slots i).iov_len)
    (family : ∀ p ∈ batch, p.source.size = cfg.name_size) :
    Inv cfg (arrived ++ batch) pushed
      { recvmmsg cfg s 0 batch with phase := .handling 0 batch.length } := by
  obtain ⟨hnodup, hphase⟩ := h
  rw [phase] at hphase
  obtain ⟨hready, hsettled⟩ := hphase
  have hlen : ∀ p ∈ batch, p.data.length ≤ B := by
    intro p hp
    obtain ⟨i, hi, rfl⟩ := List.getElem_of_mem hp
    obtain ⟨a, ha⟩ := hready i (by omega)
    rw [← ha.iov_len]
    exact fits i hi
  obtain ⟨hready', hsame, -, hholds⟩ := recvmmsg_holds (i := 0) hready hnodup (by omega) hlen family
  have hnodup' : (owned cfg { recvmmsg cfg s 0 batch with
      phase := .handling 0 batch.length }).Nodup := by
    have howned : owned cfg (recvmmsg cfg s 0 batch) = owned cfg s := hsame.owned_eq
    rw [← howned] at hnodup
    exact hnodup
  refine ⟨hnodup', Nat.zero_le _, count,
    fun i hi => (hready' i hi).imp fun a ha => ha.congr rfl, arrived, batch, rfl, rfl, fun n => ?_,
    fun j hj _ => ?_⟩
  · rw [List.take_zero, List.append_nil, ← hsettled.distributed n]
    show pushed n ++ ((recvmmsg cfg s 0 batch).received_buffers.queue n).map _ = _
    rw [hsame.received_buffers, hsettled.queue n]
    rfl
  · have hj' := hholds j hj
    rw [Nat.zero_add] at hj'
    exact hj'.congr rfl fun _ _ => rfl

/-- A packet that is for no node is done with. -/
theorem Inv.dropped (h : Inv cfg arrived pushed s) (phase : s.phase = .handling i num_received)
    (more : i < num_received) (run : (handle cfg i).run s = .ok false s') :
    Inv cfg arrived pushed { s' with phase := .handling (i + 1) num_received } := by
  obtain ⟨hnodup, hphase⟩ := h
  rw [phase] at hphase
  obtain ⟨-, hcount, hready, before, batch, harrived, hlen, hd, hholds⟩ := hphase
  have hi : i < batch.length := hlen ▸ more
  obtain ⟨a, ha⟩ := hready i (by omega)
  rcases handle_run cfg ha.buffer (hholds i hi le_rfl) with
    ⟨n, b, -, -, hrun⟩ | ⟨hnone, heap, hheap, hrun⟩
  · rw [hrun] at run
    cases run
  rw [hrun] at run
  obtain ⟨-, rfl⟩ := EStateM.Result.ok.inj run
  have hi' : i < SETH_MAX_RECVMM_MESSAGES := by omega
  refine ⟨hnodup, more, hcount, fun j hj => (hready j hj).imp fun b hb => hb.congr rfl, before, batch,
    harrived, hlen, fun n => ?_, fun j hj hij => ?_⟩
  · rw [List.take_add_one, List.getElem?_eq_getElem hi, Option.toList_some, ← List.append_assoc,
      filter_goesTo_none hnone]
    have hd' : Distributed cfg pushed { s with heap := heap } (before ++ batch.take i) := by
      refine hd.congr rfl fun c hc => hheap c ?_
      rintro rfl
      exact slot_not_queued hnodup hi' ha.buffer hc
    exact hd' n
  · refine (hholds j hj (by omega)).congr rfl fun c hc => hheap c ?_
    rintro rfl
    have := slot_unique hnodup hi' (by omega) ha.buffer hc
    omega

/-- A packet for a node is queued. -/
theorem Inv.queued (h : Inv cfg arrived pushed s) (phase : s.phase = .handling i num_received)
    (more : i < num_received) (run : (handle cfg i).run s = .ok true s') :
    Inv cfg arrived pushed { s' with phase := .replenishing i num_received } := by
  obtain ⟨hnodup, hphase⟩ := h
  rw [phase] at hphase
  obtain ⟨-, hcount, hready, before, batch, harrived, hlen, hd, hholds⟩ := hphase
  have hi : i < batch.length := hlen ▸ more
  obtain ⟨a, ha⟩ := hready i (by omega)
  rcases handle_run cfg ha.buffer (hholds i hi le_rfl) with
    ⟨n, b, hgoes, hb, hrun⟩ | ⟨-, heap, -, hrun⟩
  swap
  · rw [hrun] at run
    cases run
  rw [hrun] at run
  obtain ⟨-, rfl⟩ := EStateM.Result.ok.inj run
  have hi' : i < SETH_MAX_RECVMM_MESSAGES := by omega
  have hslot : Function.update s.slots i { s.slots i with buffer := none } i =
      { s.slots i with buffer := none } := Function.update_self ..
  have hnodup' := hnodup
  rw [← owned_queued (Function.update s.heap a b) n (.replenishing i num_received) hi'
    ha.buffer (show ({ s.slots i with buffer := none } : ReceiveSlot).buffer = none from rfl)] at hnodup'
  refine ⟨hnodup', more, hcount, fun j hj hji => ?_, ⟨?_, ?_⟩, before, batch, harrived, hlen, ?_,
    fun j hj hij => ?_⟩
  · exact (hready j hj).imp fun c hc => hc.congr (Function.update_of_ne hji _ _)
  · exact (congrArg ReceiveSlot.iov_len hslot).trans ha.iov_len
  · exact ha.msg_namelen.trans_eq (congrArg ReceiveSlot.msg_namelen hslot).symm
  · rw [List.take_add_one, List.getElem?_eq_getElem hi, Option.toList_some, ← List.append_assoc]
    exact hd.queued _ hgoes hb (slot_not_queued hnodup hi' ha.buffer)
  · have hji : j ≠ i := by omega
    refine (hholds j hj (by omega)).congr (Function.update_of_ne hji _ _) fun c hc =>
      Function.update_of_ne ?_ _ _
    rintro rfl
    exact hji (slot_unique hnodup (by omega) hi' hc ha.buffer)

/-- A slot is replenished. -/
theorem Inv.replenished {pool : BufferPool Nat B} (h : Inv cfg arrived pushed s)
    (phase : s.phase = .replenishing i num_received)
    (pop : s.available_tx_buffer_pool.pop_wait = .ok (a, pool)) :
    Inv cfg arrived pushed { s with
      available_tx_buffer_pool := pool
      slots := Function.update s.slots i
        { s.slots i with buffer := some a, iov_base := a, msg_name := a }
      phase := .handling (i + 1) num_received } := by
  obtain ⟨hnodup, hphase⟩ := h
  rw [phase] at hphase
  obtain ⟨more, hcount, hready, ⟨hlen, hname⟩, hround⟩ := hphase
  refine ⟨Multiset.nodup_of_le (owned_popped _ (by omega) pop rfl) hnodup, more, hcount,
    readyBelow_update rfl hready rfl rfl hlen rfl hname, ?_⟩
  refine hround.congr rfl (fun _ _ => rfl) fun j hij _ => ⟨Function.update_of_ne ?_ _ _, fun _ _ => rfl⟩
  omega

/-- All packets of the round are done with. -/
theorem Inv.handled {node_keys : List In6Addr} (h : Inv cfg arrived pushed s)
    (phase : s.phase = .handling num_received num_received)
    (keys : node_keys.Perm (s.received_buffers.values.map NodeBuffers.key)) :
    Inv cfg arrived pushed { s with phase := .pushing node_keys } := by
  obtain ⟨hnodup, hphase⟩ := h
  rw [phase] at hphase
  obtain ⟨-, -, hready, before, batch, rfl, hlen, hd, -⟩ := hphase
  refine ⟨hnodup, fun i hi => (hready i hi).imp fun a ha => ha.congr rfl, ?_, fun n hn => ?_⟩
  · rw [List.take_of_length_le (Nat.le_of_eq hlen)] at hd
    exact hd.congr rfl fun _ _ => rfl
  · have hnone : s.received_buffers.find? n = none := by
      cases hfind : s.received_buffers.find? n with
      | none => rfl
      | some entry =>
        obtain ⟨hmem, hkey⟩ := KeyedList.find?_eq_some.mp hfind
        exact absurd (keys.mem_iff.mpr (hkey ▸ List.mem_map_of_mem hmem)) hn
    show s.received_buffers.queue n = []
    rw [ReceivedBuffers.queue, hnone]
    rfl

/-- A node gets its packets. -/
theorem Inv.push {node_keys : List In6Addr} {pool : BufferPool Nat B}
    (h : Inv cfg arrived pushed s) (phase : s.phase = .pushing (n :: node_keys))
    (push : (s.decoder_pool n).pushBatch s.bufferSize (s.received_buffers.queue n) = .ok pool) :
    Inv cfg arrived (fun m => pushed m ++ pushedTo m
      [.pushed n ((s.received_buffers.queue n).map fun a => (s.heap a).datagram)]) { s with
        decoder_pool := Function.update s.decoder_pool n pool
        received_buffers := s.received_buffers.clear n
        phase := .pushing node_keys } := by
  obtain ⟨hnodup, hphase⟩ := h
  rw [phase] at hphase
  obtain ⟨hready, hd, hrest⟩ := hphase
  obtain rfl := BufferPool.eq_of_pushBatch push
  refine ⟨Multiset.nodup_of_le (owned_pushed _) hnodup,
    fun i hi => (hready i hi).imp fun a ha => ha.congr rfl, fun m => ?_, fun m hm => ?_⟩
  · show (_ ++ pushedTo m [.pushed n _]) ++ ((s.received_buffers.clear n).queue m).map _ = _
    rw [ReceivedBuffers.queue_clear, pushedTo_pushed, ← hd m]
    by_cases hm : n = m
    · subst hm
      rw [if_pos rfl, if_pos rfl, List.map_nil, List.append_nil]
    · rw [if_neg hm, if_neg hm, List.append_nil]
  · show (s.received_buffers.clear n).queue m = []
    rw [ReceivedBuffers.queue_clear]
    by_cases hnm : n = m
    · rw [if_pos hnm]
    · rw [if_neg hnm]
      exact hrest m (by simp [Ne.symm hnm, hm])

/-- The other threads reach nothing that is the reader's. -/
theorem Inv.others (h : Inv cfg arrived pushed s) (slots : s'.slots = s.slots)
    (received_buffers : s'.received_buffers = s.received_buffers) (phase : s'.phase = s.phase)
    (kept : shared cfg s' ≤ shared cfg s) (heap : ∀ a ∉ shared cfg s, s'.heap a = s.heap a) :
    Inv cfg arrived pushed s' := by
  obtain ⟨hnodup, hphase⟩ := h
  have hqueued : ∀ a ∈ s.received_buffers.all, s'.heap a = s.heap a :=
    fun a ha => heap a (queued_not_shared hnodup ha)
  have hslot : ∀ i a, i < SETH_MAX_RECVMM_MESSAGES → (s.slots i).buffer = some a →
      s'.heap a = s.heap a := fun i a hi ha => heap a (slot_not_shared hnodup hi ha)
  have hready : ∀ i a, SlotReady cfg s i a → SlotReady cfg s' i a :=
    fun i a ha => ha.congr (congrFun slots i)
  have hall : AllReady cfg s → AllReady cfg s' :=
    fun h i hi => (h i hi).imp fun a ha => hready i a ha
  have hround : ∀ i num_received, num_received ≤ SETH_MAX_RECVMM_MESSAGES →
      InRound cfg arrived pushed s i num_received → InRound cfg arrived pushed s' i num_received := by
    intro i num_received hcount h
    refine h.congr received_buffers hqueued fun j _ hj => ⟨congrFun slots j, fun a ha => ?_⟩
    exact hslot j a (by omega) ha
  constructor
  · refine Multiset.nodup_of_le ?_ hnodup
    rw [owned, owned, slots, received_buffers]
    exact add_le_add le_rfl kept
  · rw [phase]
    cases hp : s.phase with
    | filling i =>
      rw [hp] at hphase
      exact ⟨fun j hj => (hphase.1 j hj).imp fun a ha => hready j a ha,
        hphase.2.congr received_buffers hqueued⟩
    | receiving =>
      rw [hp] at hphase
      exact ⟨hall hphase.1, hphase.2.congr received_buffers hqueued⟩
    | stopped =>
      rw [hp] at hphase
      exact ⟨hall hphase.1, hphase.2.congr received_buffers hqueued⟩
    | handling i num_received =>
      rw [hp] at hphase
      obtain ⟨hi, hcount, hrest, hr⟩ := hphase
      exact ⟨hi, hcount, hall hrest, hround _ _ hcount hr⟩
    | replenishing i num_received =>
      rw [hp] at hphase
      obtain ⟨hi, hcount, hrest, hslot', hr⟩ := hphase
      refine ⟨hi, hcount, fun j hj hji => (hrest j hj hji).imp fun a ha => hready j a ha, ?_,
        hround _ _ hcount hr⟩
      rw [slots]
      exact hslot'
    | pushing node_keys =>
      rw [hp] at hphase
      obtain ⟨hrest, hd, hq⟩ := hphase
      exact ⟨hall hrest, hd.congr received_buffers hqueued, received_buffers ▸ hq⟩

/-- **One step** of any thread keeps the invariant. -/
theorem Inv.step {event : ReaderEvent} (h : Inv cfg arrived pushed s)
    (hstep : Step cfg s event s') :
    Inv cfg (arrived ++ arrivals [event]) (fun n => pushed n ++ pushedTo n [event]) s' := by
  have hsilent : ∀ {s' : SocketReader B}, Inv cfg arrived pushed s' →
      Inv cfg (arrived ++ arrivals [.silent]) (fun n => pushed n ++ pushedTo n [.silent]) s' := by
    intro s' h'
    have hpushed : (fun n => pushed n ++ pushedTo n [.silent]) = pushed :=
      funext fun n => List.append_nil _
    rw [hpushed, show arrived ++ arrivals [.silent] = arrived from List.append_nil _]
    exact h'
  cases hstep with
  | @filled i a pool phase more pop =>
    obtain ⟨hnodup, hphase⟩ := h
    rw [phase] at hphase
    obtain ⟨hready, hsettled⟩ := hphase
    refine hsilent ⟨Multiset.nodup_of_le (owned_popped _ more pop rfl) hnodup, ?_, ?_⟩
    · refine readyBelow_update rfl (fun j hj hji => hready j (by omega)) rfl rfl ?_ rfl
        cfg.name_size_le
      exact PacketBuffer.getBufferSize_eq _
    · exact hsettled.congr rfl fun _ _ => rfl
  | ready phase =>
    obtain ⟨hnodup, hphase⟩ := h
    rw [phase] at hphase
    exact hsilent ⟨hnodup, fun i hi => (hphase.1 i hi).imp fun a ha => ha.congr rfl,
      hphase.2.congr rfl fun _ _ => rfl⟩
  | stopped phase =>
    obtain ⟨hnodup, hphase⟩ := h
    rw [phase] at hphase
    exact hsilent ⟨hnodup, fun i hi => (hphase.1 i hi).imp fun a ha => ha.congr rfl,
      hphase.2.congr rfl fun _ _ => rfl⟩
  | @received batch phase count fits family =>
    have hpushed : (fun n => pushed n ++ pushedTo n [.received batch]) = pushed :=
      funext fun n => List.append_nil _
    rw [hpushed, show arrivals [.received batch] = batch from List.append_nil _]
    exact h.received phase count fits family
  | dropped phase more run => exact hsilent (h.dropped phase more run)
  | queued phase more run => exact hsilent (h.queued phase more run)
  | replenished phase pop => exact hsilent (h.replenished phase pop)
  | handled phase keys => exact hsilent (h.handled phase keys)
  | @pushed n node_keys pool phase push =>
    rw [show ∀ datagrams, arrived ++ arrivals [.pushed n datagrams] = arrived from
      fun _ => List.append_nil _]
    exact h.push phase push
  | again phase =>
    obtain ⟨hnodup, hphase⟩ := h
    rw [phase] at hphase
    obtain ⟨hready, hd, hq⟩ := hphase
    exact hsilent ⟨hnodup, fun i hi => (hready i hi).imp fun a ha => ha.congr rfl,
      hd.congr rfl fun _ _ => rfl, fun n => hq n List.not_mem_nil⟩
  | others slots received_buffers phase kept heap =>
    exact hsilent (h.others slots received_buffers phase kept heap)

/-- The reader starts with buffers that are not in two places. -/
theorem Inv.start {heap : Nat → PacketBuffer B} {available : List Nat} (h : available.Nodup) :
    Inv cfg [] (fun _ => []) (start heap available) := by
  refine ⟨?_, fun j hj => absurd hj (Nat.not_lt_zero j), fun n => rfl, fun n => rfl⟩
  have howned : owned cfg (SocketReader.start heap available : SocketReader B) = ↑available := by
    have hslots : slotBuffers (SocketReader.start heap available : SocketReader B).slots = 0 :=
      Finset.sum_eq_zero fun _ _ => rfl
    have hpools : ∑ n ∈ cfg.remote_nodes,
        (((SocketReader.start heap available : SocketReader B).decoder_pool n).pool : Multiset Nat) = 0 :=
      Finset.sum_eq_zero fun _ _ => rfl
    rw [owned, shared, hslots, hpools]
    show 0 + 0 + (↑available + 0 + 0) = (↑available : Multiset Nat)
    abel
  rw [howned]
  exact Multiset.coe_nodup.mpr h

/-- **Runs** keep the invariant. -/
theorem Inv.of_path {heap : Nat → PacketBuffer B} {available : List Nat} (h : available.Nodup)
    (hrun : StepPath (Step cfg) (SocketReader.start heap available) events s) :
    Inv cfg (arrivals events) (fun n => pushedTo n events) s := by
  refine hrun.invariant_prefix [] (I := fun events s =>
    Inv cfg (arrivals events) (fun n => pushedTo n events) s) ?_ (Inv.start h)
  intro events s event t hs hstep
  have ht := hs.step hstep
  simp only [← pushedTo_concat, ← arrivals_concat] at ht
  exact ht

/-! ## What `decode` makes of the header -/

end SocketReader

namespace PacketDecoder
variable {H : Type} {cfg : DecoderConfig H} {d : PacketDecoder H B} {packetBuffer : PacketBuffer B}
  {tx : PacketBuffer B}

theorem headerOf_eq_read (h : PacketHeader.size ≤ packetBuffer.dataSize) :
    headerOf cfg packetBuffer = PacketHeader.read cfg.host fun k => packetBuffer.data.getD k 0 := by
  apply PacketHeader.read_congr
  intro k hk
  exact PacketBuffer.byteAt_of_lt (by simp only [PacketHeader.size] at h; omega)

/-- **What the reader passed** comes to the sequence check: no check of the header fires. -/
theorem decodeHeader_of_passes (h : HeaderPasses cfg.host packetBuffer.data) :
    decodeHeader cfg packetBuffer = (do
      checkSequence cfg (headerOf cfg packetBuffer).sequence
      scanOptions cfg packetBuffer (headerOf cfg packetBuffer).opt_len
        (headerOf cfg packetBuffer).opt_len 0 PacketHeader.size 0) := by
  obtain ⟨hlong, hvalid⟩ := h
  rw [packetBuffer.data_length] at hlong
  have hsize : PacketHeader.size ≤ packetBuffer.dataSize := Nat.le_of_add_right_le hlong
  rw [← headerOf_eq_read hsize] at hvalid
  obtain ⟨hver, hres, hformat, hchannel⟩ := hvalid
  unfold decodeHeader
  rw [if_neg (Nat.not_lt_of_ge hsize)]
  simp only [gt_iff_lt, if_neg (Nat.not_lt_of_ge hver), ne_eq, hres, hformat, hchannel, not_true,
    if_false]

/-- **What the reader drops for its header** is rejected, and delivers no frame. -/
theorem decode_of_not_passes (htx : d.tx_buffer = some tx)
    (h : ¬HeaderPasses cfg.host packetBuffer.data) (fuel : Nat) :
    ∃ d', (decode cfg fuel packetBuffer).run d = .ok () d' ∧ d'.tx_buffer_pool = d.tx_buffer_pool := by
  have hrejected : ∀ d', (decodeHeader cfg packetBuffer).run d = .ok none d' →
      (decode cfg fuel packetBuffer).run d = .ok () d' := by
    intro d' hrun
    simp only [decode, EStateM.run_bind, hrun, EStateM.run_pure]
  by_cases hshort : packetBuffer.dataSize < PacketHeader.size
  · exact ⟨_, hrejected _ (decodeHeader_short htx hshort), rfl⟩
  have hlong := Nat.le_of_not_lt hshort
  by_cases hvalid : HeaderValid (headerOf cfg packetBuffer)
  swap
  · exact ⟨_, hrejected _ (decodeHeader_invalid htx hlong hvalid), rfl⟩
  -- the datagram has no room for an option
  have hfirst : ¬FirstOptionValid cfg packetBuffer := by
    rintro ⟨-, hroom, -⟩
    apply h
    rw [headerOf_eq_read hlong] at hvalid
    refine ⟨?_, hvalid⟩
    rw [packetBuffer.data_length]
    omega
  refine ⟨_, hrejected _ (decodeHeader_first_invalid htx hlong hvalid hfirst), ?_⟩
  show (d.arrived cfg _).tx_buffer_pool = _
  unfold arrived
  split
  · rfl
  · rfl

end PacketDecoder

namespace SocketReader
open PacketHeaderOptionType PacketHeaderOptionFormatType
variable {cfg : ReaderConfig} {s : SocketReader B} {events : List ReaderEvent} {H : Type}

/-! ## The claim about whole runs -/

/-- **What a run pushed was received**: wherever it pushes datagrams for a node, buffers that hold
these datagrams are appended to the decoder pool of that node, and no other pool changes. -/
def Received (cfg : ReaderConfig) (s₀ : SocketReader B) (events : List ReaderEvent) (s : SocketReader B) :
    Prop :=
  ∀ before n datagrams after, events = before ++ .pushed n datagrams :: after →
    ∃ t t' buffers, StepPath (Step cfg) s₀ before t ∧ Step cfg t (.pushed n datagrams) t' ∧
      StepPath (Step cfg) t' after s ∧ buffers.map (fun a => (t'.heap a).datagram) = datagrams ∧
      t'.decoder_pool = Function.update t.decoder_pool n ⟨(t.decoder_pool n).pool ++ buffers⟩

/-- Only the reader pushes. -/
theorem received_of_path {s₀ : SocketReader B} (hrun : StepPath (Step cfg) s₀ events s) :
    Received cfg s₀ events s := by
  rintro before n datagrams after rfl
  obtain ⟨t, hbefore, hrest⟩ := StepPath.append_iff.mp hrun
  obtain ⟨t', hstep, hafter⟩ := StepPath.cons_iff.mp hrest
  refine ⟨t, t', t.received_buffers.queue n, hbefore, hstep, hafter, ?_⟩
  cases hstep with
  | pushed phase push => exact ⟨rfl, by rw [BufferPool.eq_of_pushBatch push]⟩

/-- **The reader sorts**: what it pushes for a node are the datagrams for the node in the order they came
in, all of them whenever `recvmmsg` is called; every slot then has a buffer of its own that both its
pointers refer to; and handling a packet never throws. -/
structure Sorts (cfg : ReaderConfig) (events : List ReaderEvent) (s : SocketReader B) : Prop where
  pushed : ∀ n, pushedTo n events <+: (arrivals events).filter (GoesTo cfg n)
  settled : s.phase = .receiving → ∀ n, pushedTo n events = (arrivals events).filter (GoesTo cfg n)
  ready : s.phase = .receiving → ∃ buffer : Nat → Nat,
    (∀ i < SETH_MAX_RECVMM_MESSAGES, SlotReady cfg s i (buffer i) ∧ buffer i ∉ shared cfg s) ∧
    ∀ i < SETH_MAX_RECVMM_MESSAGES, ∀ j < SETH_MAX_RECVMM_MESSAGES, buffer i = buffer j → i = j
  handles : ∀ i num_received, s.phase = .handling i num_received → i < num_received →
    ∃ queued s', (handle cfg i).run s = .ok queued s'

/-- **The reader demultiplexes**: it sorts, and what it pushes for a node is what the decoder pool of that
node receives. -/
structure Demultiplexes (cfg : ReaderConfig) (s₀ : SocketReader B) (events : List ReaderEvent)
    (s : SocketReader B) : Prop extends Sorts cfg events s where
  received : Received cfg s₀ events s

/-- **`decode` agrees with the reader's checks**: on what passed them it goes on to the sequence check,
and what did not pass them it rejects, delivering nothing. -/
structure DecodeAgrees (cfg : ReaderConfig) (dcfg : DecoderConfig H) (d : PacketDecoder H B) :
    Prop where
  passed : ∀ b : PacketBuffer B, HeaderPasses cfg.host b.data →
    PacketDecoder.decodeHeader dcfg b = (do
      PacketDecoder.checkSequence dcfg (PacketDecoder.headerOf dcfg b).sequence
      PacketDecoder.scanOptions dcfg b (PacketDecoder.headerOf dcfg b).opt_len
        (PacketDecoder.headerOf dcfg b).opt_len 0 PacketHeader.size 0)
  dropped : ∀ b : PacketBuffer B, ¬HeaderPasses cfg.host b.data → ∀ fuel, ∃ d',
    (PacketDecoder.decode dcfg fuel b).run d = .ok () d' ∧ d'.tx_buffer_pool = d.tx_buffer_pool

/-- In the middle of its round the reader has the first datagrams of the batch in their queues. -/
theorem InRound.distributed {i num_received : Nat} (h : InRound cfg arrived pushed s i num_received) :
    ∃ consumed, consumed <+: arrived ∧ Distributed cfg pushed s consumed := by
  obtain ⟨before, batch, harrived, -, hd, -⟩ := h
  refine ⟨_, ?_, hd⟩
  rw [harrived]
  exact (List.prefix_append_right_inj before).mpr (List.take_prefix i batch)

/-- **Wherever the reader is**, the first datagrams that arrived are in their queues or were pushed. -/
theorem PhaseOk.distributed {phase : ReaderPhase} (h : PhaseOk cfg arrived pushed s phase) :
    ∃ consumed, consumed <+: arrived ∧ Distributed cfg pushed s consumed := by
  cases phase with
  | filling i => exact ⟨arrived, List.prefix_refl _, h.2.distributed⟩
  | receiving => exact ⟨arrived, List.prefix_refl _, h.2.distributed⟩
  | stopped => exact ⟨arrived, List.prefix_refl _, h.2.distributed⟩
  | handling i num_received => exact h.2.2.2.distributed
  | replenishing i num_received => exact h.2.2.2.2.distributed
  | pushing node_keys => exact ⟨arrived, List.prefix_refl _, h.2.1⟩

theorem Inv.sorts (h : Inv cfg (arrivals events) (fun n => pushedTo n events) s) : Sorts cfg events s := by
  obtain ⟨hnodup, hphase⟩ := h
  constructor
  · obtain ⟨consumed, hconsumed, hd⟩ := PhaseOk.distributed hphase
    intro n
    have hn : pushedTo n events <+: consumed.filter (GoesTo cfg n) := by
      rw [← hd n]
      exact List.prefix_append _ _
    exact hn.trans (hconsumed.filter _)
  · intro hp n
    rw [hp] at hphase
    rw [← hphase.2.distributed n, hphase.2.queue n, List.map_nil, List.append_nil]
  · intro hp
    rw [hp] at hphase
    have hready : ∀ i, ∃ a, i < SETH_MAX_RECVMM_MESSAGES → SlotReady cfg s i a := by
      intro i
      by_cases hi : i < SETH_MAX_RECVMM_MESSAGES
      · obtain ⟨a, ha⟩ := hphase.1 i hi
        exact ⟨a, fun _ => ha⟩
      · exact ⟨0, fun hi' => absurd hi' hi⟩
    choose buffer hbuffer using hready
    -- a buffer in two slots would be owned twice
    refine ⟨buffer, fun i hi => ⟨hbuffer i hi, slot_not_shared hnodup hi (hbuffer i hi).buffer⟩,
      fun i hi j hj heq => ?_⟩
    exact slot_unique hnodup hi hj (hbuffer i hi).buffer (heq ▸ (hbuffer j hj).buffer)
  · intro i num_received hp hi
    rw [hp] at hphase
    obtain ⟨-, hcount, hready, before, batch, -, hlen, -, hholds⟩ := hphase
    obtain ⟨a, ha⟩ := hready i (by omega)
    rcases handle_run cfg ha.buffer (hholds i (by omega) le_rfl) with
      ⟨n, b, -, -, hrun⟩ | ⟨-, heap, -, hrun⟩
    · exact ⟨_, _, hrun⟩
    · exact ⟨_, _, hrun⟩

/-! Nothing keeps the reader from going round. -/

variable (cfg) in
/-- The slots are set up, as long as there are buffers. -/
theorem exists_filled (heap : Nat → PacketBuffer B) (available : List Nat) {k : Nat}
    (hk : k ≤ SETH_MAX_RECVMM_MESSAGES) (hlen : k ≤ available.length) :
    ∃ events s, StepPath (Step cfg) (start heap available) events s ∧ arrivals events = [] ∧
      s.phase = .filling k ∧ s.available_tx_buffer_pool.pool = available.drop k := by
  induction k with
  | zero => exact ⟨[], _, .nil _, rfl, rfl, rfl⟩
  | succ k ih =>
    obtain ⟨events, s, hpath, hnone, hphase, hpool⟩ := ih (by omega) (by omega)
    rw [List.drop_eq_getElem_cons (by omega)] at hpool
    have hpop : s.available_tx_buffer_pool.pop_wait =
        .ok (available[k], ⟨available.drop (k + 1)⟩) := by
      rw [BufferPool.pop_wait, hpool]
    refine ⟨_, _, hpath.concat (.filled hphase (by omega) hpop), ?_, rfl, rfl⟩
    rw [arrivals_concat, hnone]
    rfl

variable (cfg) in
/-- What is queued is pushed, node by node. -/
theorem exists_pushed {node_keys : List In6Addr} (hphase : s.phase = .pushing node_keys) :
    ∃ events s', StepPath (Step cfg) s events s' ∧ arrivals events = [] ∧ s'.phase = .receiving := by
  induction node_keys generalizing s with
  | nil => exact ⟨_, _, .single (.again hphase), rfl, rfl⟩
  | cons n node_keys ih =>
    have hpush : (s.decoder_pool n).pushBatch s.bufferSize (s.received_buffers.queue n) =
        .ok ⟨(s.decoder_pool n).pool ++ s.received_buffers.queue n⟩ := by
      rw [BufferPool.pushBatch, if_neg]
      simp [bufferSize]
    obtain ⟨s1, h1, hphase1⟩ : ∃ s1, Step cfg s (.pushed n ((s.received_buffers.queue n).map fun a =>
        (s.heap a).datagram)) s1 ∧ s1.phase = .pushing node_keys := ⟨_, .pushed hphase hpush, rfl⟩
    obtain ⟨events, s', hpath, hnone, hphase'⟩ := ih hphase1
    exact ⟨_, s', .cons h1 hpath, hnone, hphase'⟩

/-- A packet for a node gets through. -/
theorem exists_round {arrived : List UdpDatagram} {pushed : In6Addr → List UdpDatagram} {n : In6Addr}
    {p : UdpDatagram} (h : Inv cfg arrived pushed s) (hphase : s.phase = .receiving)
    (hpool : s.available_tx_buffer_pool.pool ≠ []) (hlen : p.data.length ≤ B)
    (hfamily : p.source.size = cfg.name_size) (hgoes : GoesTo cfg n p) :
    ∃ events s', StepPath (Step cfg) s events s' ∧ arrivals events = [p] ∧ s'.phase = .receiving := by
  have hmax : 1 ≤ SETH_MAX_RECVMM_MESSAGES := by
    rw [SETH_MAX_RECVMM_MESSAGES]
    omega
  have hready : AllReady cfg s := by
    have hok := h.phase
    rw [hphase] at hok
    exact hok.1
  have hfits : ∀ i (hi : i < [p].length), [p][i].data.length ≤ (s.slots i).iov_len := by
    intro i hi
    obtain ⟨a, ha⟩ := hready i (by rw [List.length_singleton] at hi; omega)
    rw [ha.iov_len, List.getElem_singleton]
    exact hlen
  have hfam : ∀ q ∈ [p], q.source.size = cfg.name_size := by
    intro q hq
    rw [List.mem_singleton.mp hq]
    exact hfamily
  have hone : ∀ q ∈ [p], q.data.length ≤ B := by
    intro q hq
    rw [List.mem_singleton.mp hq]
    exact hlen
  have hsame : SameOwners s (recvmmsg cfg s 0 [p]) :=
    (recvmmsg_holds hready h.nodup (by rw [List.length_singleton]; omega) hone hfam).2.1
  obtain ⟨s1, h1, hphase1, hinv1, hpool1⟩ : ∃ s1, Step cfg s (.received [p]) s1 ∧
      s1.phase = .handling 0 1 ∧ Inv cfg (arrived ++ [p]) pushed s1 ∧
      s1.available_tx_buffer_pool = s.available_tx_buffer_pool :=
    ⟨_, .received hphase hmax hfits hfam, rfl, h.received hphase hmax hfits hfam,
      hsame.available_tx_buffer_pool⟩
  -- the packet is in slot 0
  have hok := hinv1.phase
  rw [hphase1] at hok
  obtain ⟨-, -, hready1, before, batch, harrived, hcount, -, hholds⟩ := hok
  obtain ⟨rfl, rfl⟩ := List.append_inj' harrived hcount.symm
  obtain ⟨a, ha⟩ := hready1 0 hmax
  rcases handle_run cfg ha.buffer (hholds 0 Nat.zero_lt_one le_rfl) with
    ⟨m, b, -, -, hrun⟩ | ⟨hnone, -⟩
  swap
  · exact absurd hgoes (hnone n)
  obtain ⟨s2, h2, hphase2, hpool2⟩ : ∃ s2, Step cfg s1 .silent s2 ∧ s2.phase = .replenishing 0 1 ∧
      s2.available_tx_buffer_pool = s1.available_tx_buffer_pool :=
    ⟨_, .queued hphase1 Nat.zero_lt_one hrun, rfl, rfl⟩
  obtain ⟨c, rest, hcons⟩ := List.exists_cons_of_ne_nil hpool
  have hpop : s2.available_tx_buffer_pool.pop_wait = .ok (c, ⟨rest⟩) := by
    rw [hpool2, hpool1, BufferPool.pop_wait, hcons]
  obtain ⟨s3, h3, hphase3⟩ : ∃ s3, Step cfg s2 .silent s3 ∧ s3.phase = .handling 1 1 :=
    ⟨_, .replenished hphase2 hpop, rfl⟩
  obtain ⟨s4, h4, hphase4⟩ : ∃ s4, Step cfg s3 .silent s4 ∧
      s4.phase = .pushing (s3.received_buffers.values.map NodeBuffers.key) :=
    ⟨_, .handled hphase3 (List.Perm.refl _), rfl⟩
  obtain ⟨events, s', hpath, hevents, hphase'⟩ := exists_pushed cfg hphase4
  refine ⟨_, s', .cons h1 (.cons h2 (.cons h3 (.cons h4 hpath))), ?_, hphase'⟩
  show [p] ++ arrivals events = [p]
  rw [hevents]
  rfl

/-- **The socket reader**: in every run of it beside the other threads, whatever comes in, it
demultiplexes, and the decoder agrees with its checks in every state that it can be in. -/
theorem demultiplexes_of_path {heap : Nat → PacketBuffer B} {available : List Nat}
    (hnodup : available.Nodup) (hrun : StepPath (Step cfg) (start heap available) events s)
    {dcfg : DecoderConfig H} (hhost : dcfg.host = cfg.host) {davailable pkts : List (PacketBuffer B)}
    {d0 d : PacketDecoder H B} (hdstart : PacketDecoder.Starts dcfg davailable d0)
    (hdrun : StepPath (PacketDecoder.Decodes dcfg) d0 pkts d) :
    Demultiplexes cfg (start heap available) events s ∧ DecodeAgrees cfg dcfg d := by
  refine ⟨⟨(Inv.of_path hnodup hrun).sorts, received_of_path hrun⟩, fun b hb => ?_, fun b hb fuel => ?_⟩
  · rw [← hhost] at hb
    exact PacketDecoder.decodeHeader_of_passes hb
  · have howns : ∃ m, PacketDecoder.Owns m d := by
      refine hdrun.invariant (I := fun d => ∃ m, PacketDecoder.Owns m d) ?_ ⟨_, hdstart.owns⟩
      rintro d1 pkt d2 ⟨m, h⟩ hstep
      exact ⟨_, hstep.of_meets PacketDecoder.decode_owns h⟩
    obtain ⟨m, howns⟩ := howns
    obtain ⟨tx, -, htx, -⟩ := howns.exists_buffers
    rw [← hhost] at hb
    exact PacketDecoder.decode_of_not_passes htx hb fuel

/-- A packet from a known node, beside a decoder that was given one it has to drop. -/
theorem demultiplexes_of_path_one :
    let cfg : ReaderConfig := ⟨{mappedAddr #v[192, 0, 2, 1]}, .little, 28, by decide, id⟩
    let dcfg := (Tunnel.smallestLZ4 (.inet 58023 #v[192, 0, 2, 1])).decoder fun _ => 0
    let p : UdpDatagram := ⟨(PacketEncoder.header 7 1).bytes .little ++
      (PacketHeaderOption.mk COMPLETE_PACKET 0 NONE 0 0 0).bytes,
      .inet6 58023 0 (mappedAddr #v[192, 0, 2, 1]) 0⟩
    let s₀ : SocketReader 1344 := start (fun _ => .ofData 0 [] (Nat.zero_le _)) (List.range 300)
    ∃ (events : List ReaderEvent) (s : SocketReader 1344) (d : PacketDecoder (List (List UInt8)) 1344),
      StepPath (Step cfg) s₀ events s ∧ pushedTo (mappedAddr #v[192, 0, 2, 1]) events = [p] ∧
      Demultiplexes cfg s₀ events s ∧ DecodeAgrees cfg dcfg d := by
  intro cfg dcfg p s₀
  have hmax : SETH_MAX_RECVMM_MESSAGES = 256 := by rw [SETH_MAX_RECVMM_MESSAGES]
  have hnodup : (List.range 300).Nodup := List.nodup_range
  obtain ⟨events0, s0, hpath0, hnone, hphase0, hpool0⟩ := exists_filled (B := 1344) cfg
    (fun _ => .ofData 0 [] (Nat.zero_le _)) (List.range 300) le_rfl
    (by rw [hmax, List.length_range]; omega)
  obtain ⟨s1, h1, hphase1, hpool1⟩ : ∃ s1, Step cfg s0 .silent s1 ∧ s1.phase = .receiving ∧
      s1.available_tx_buffer_pool.pool ≠ [] := by
    refine ⟨_, .ready hphase0, rfl, ?_⟩
    show s0.available_tx_buffer_pool.pool ≠ []
    rw [hpool0, hmax]
    intro hnil
    have hlen := congrArg List.length hnil
    rw [List.length_drop, List.length_range] at hlen
    exact absurd hlen (by decide)
  have hpath1 := hpath0.concat h1
  have hgoes : GoesTo cfg (mappedAddr #v[192, 0, 2, 1]) p := by decide
  obtain ⟨events2, s2, hpath2, harrivals, hphase2⟩ :=
    exists_round (Inv.of_path hnodup hpath1) hphase1 hpool1 (by decide) rfl hgoes
  obtain ⟨⟨⟩, d, hrun, -⟩ := Call.exists_of_okAnd (p := fun _ => true)
    (r := (Tunnel.smallestLZ4 (.inet 58023 #v[192, 0, 2, 1])).decoderRun (fun _ => 0) 10
      (PacketBuffer.fresh 0 10) [.ofData 1 [1, 2, 3] (by decide)]) (by decide +kernel)
  obtain ⟨d0, hdstart, hdpath⟩ := PacketDecoder.path_of_decoderRun hrun
  have hboth : Demultiplexes cfg s₀ _ s2 ∧ DecodeAgrees cfg dcfg d :=
    demultiplexes_of_path hnodup (hpath1.append hpath2) rfl hdstart hdpath
  refine ⟨_, s2, d, hpath1.append hpath2, ?_, hboth⟩
  have hone : arrivals (events0 ++ [.silent] ++ events2) = [p] := by
    rw [arrivals, List.flatMap_append, List.flatMap_append]
    show arrivals events0 ++ arrivals [.silent] ++ arrivals events2 = [p]
    rw [hnone, harrivals]
    rfl
  rw [hboth.1.settled hphase2, hone, List.filter_singleton, decide_eq_true hgoes, cond_true]

end SocketReader
end SuperEthd
