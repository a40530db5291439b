import SuperEthd.EncoderStream

/-! # The transmission size on the path

The switch is configured with the size of the packets it may send.  A node leaves the IP and
UDP headers of the family that `is_ipv4` reports for its destination out of it; the packets
leave with the headers of the family the dual-stack socket uses for the node's address. -/
namespace SuperEthd
open PacketHeaderOptionType PacketHeaderOptionFormatType PacketEncoder

/-- The IP header of a packet to the address over the dual-stack socket: IPv4 for an IPv4 address and
for `::ffff:0:0/96`, IPv6 for every other IPv6 address. -/
def ipHeaderSize : SockaddrStorage → Nat
  | .inet _ _ => 20
  | .inet6 _ _ addr _ => if InMappedBlock addr then 20 else 40
  | .other _ => 0

/-- The form the node sends to has the same header. -/
theorem ipHeaderSize_to_ipv6 (addr : SockaddrStorage) :
    ipHeaderSize (to_sockaddr_storage_ipv6 addr) = ipHeaderSize addr := by
  cases addr with
  | inet port addr =>
    simp only [to_sockaddr_storage_ipv6, ipHeaderSize, if_pos (mappedAddr_inMappedBlock addr)]
  | inet6 => rfl
  | other => rfl

/-- What `is_ipv4` makes of the address, against the header it really gets. -/
theorem is_ipv4_header {addr : SockaddrStorage} (haddr : ∀ family, addr ≠ .other family) :
    ipHeaderSize addr ≤ (if is_ipv4 addr then 20 else 40) ∧ ¬Misread addr ∨
      is_ipv4 addr = true ∧ ipHeaderSize addr = 40 ∧ Misread addr := by
  cases addr with
  | inet => exact Or.inl ⟨by simp [ipHeaderSize, is_ipv4], id⟩
  | other family => exact absurd rfl (haddr family)
  | inet6 port flow addr scope =>
    by_cases hff : addr[10] = 0xff ∧ addr[11] = 0xff
    · by_cases hm : InMappedBlock addr
      · left
        simp [ipHeaderSize, is_ipv4, Misread, hff, hm]
      · right
        simp [ipHeaderSize, is_ipv4, Misread, hff, hm]
    · left
      refine ⟨?_, fun h => hff ⟨h.1, h.2.1⟩⟩
      have hv4 : is_ipv4 (.inet6 port flow addr scope) = false := by
        simpa [is_ipv4] using hff
      rw [hv4, ipHeaderSize]
      split <;> simp

variable {H : Type}

/-- **No packet is larger than the transmission size**: every datagram of every run, with its UDP and
IP headers. -/
def FitsTxSize (T : Tunnel H) : Prop :=
  ∀ fuel seq available ops e, T.B ≤ fuel → T.encoderRun fuel seq available ops = .ok () e →
    ∀ b ∈ e.tx_buffer_pool.pool, b.dataSize + 8 + ipHeaderSize T.node.node_addr ≤ T.sizes.tx_size

/-- Every datagram of a run is within `l4mtu`. -/
theorem dataSize_le_of_run {T : Tunnel H} (hlib : Bounded T) {fuel : Nat} (hfuel : T.B ≤ fuel)
    {seq : UInt32} {available : List (PacketBuffer T.B)} {ops : List (Op T.B)}
    {e : PacketEncoder H T.B} (hrun : T.encoderRun fuel seq available ops = .ok () e) :
    ∀ b ∈ e.tx_buffer_pool.pool, b.dataSize ≤ T.l4mtu := by
  intro b hb
  obtain ⟨e', hrun', hidle, -⟩ := Tunnel.encoderRun_ok hlib hfuel seq available ops
    (by rw [hrun]; rfl)
  obtain ⟨-, rfl⟩ := EStateM.Result.ok.inj (hrun'.symm.trans hrun)
  obtain ⟨history, ⟨ds, pending, c0, hem, -⟩, -⟩ := hidle.stream
  have hmem := List.mem_map_of_mem (f := PacketBuffer.data) hb
  rw [hem.pool] at hmem
  obtain ⟨d, hd, hdata⟩ := List.mem_map.mp hmem
  rw [← b.data_length, ← hdata, Datagram.bytes_length]
  exact (size_of_sends hem.sent d hd).2

/-- A frame that fills a fresh datagram is sent at once. -/
theorem encode_fills {T : Tunnel H} {e : PacketEncoder H T.B} {tx raw : PacketBuffer T.B} (fuel : Nat)
    (hn : e.packet_format = NONE) (htx : e.tx_buffer = some tx)
    (h8 : tx.dataSize = PacketHeader.size) (havail : e.available_buffer_pool.pool ≠ [])
    (hraw : raw.dataSize + 16 = T.l4mtu) :
    ∃ e', (encode T.encoder fuel raw).run e = .ok () e' ∧
      ∃ sent ∈ e'.tx_buffer_pool.pool, sent.dataSize = T.l4mtu := by
  have hbounds := T.size_bounds
  have hs8 : PacketHeader.size = 8 := rfl
  have ho8 : PacketHeaderOption.size = 8 := rfl
  have hsize : raw.dataSize % 65536 = raw.dataSize := Nat.mod_eq_of_lt (by omega)
  have hacc : ¬raw.dataSize > T.l2mtu := by omega
  obtain ⟨e0, he0⟩ : ∃ e0, e0 = { e with accepted := e.accepted ++ [raw.data] } := ⟨_, rfl⟩
  have hn0 : e0.packet_format = NONE := by rw [he0]; exact hn
  have htx0 : e0.tx_buffer = some tx := by rw [he0]; exact htx
  have hcomp : (compressPacket raw raw.dataSize).run e0 = .ok (raw, NONE) e0 := by
    simp only [compressPacket, EStateM.run_bind, EStateM.run_get, hn0, if_true, EStateM.run_pure]
  -- the record of the frame fills the datagram
  obtain ⟨tx1, hd1, hadd⟩ := addOption_run (e := e0)
    { type := COMPLETE_PACKET
      packet_size := raw.dataSize
      format := NONE
      payload_length := raw.dataSize
      part := 0
      reserved := 0 } raw.data htx0 (by rw [raw.data_length]; omega)
  have htx1 : tx1.dataSize = T.l4mtu := by
    rw [← tx1.data_length, hd1]
    simp only [List.length_append, PacketBuffer.data_length, PacketHeaderOption.bytes_length]
    omega
  have hpacket : (addPacket T.encoder fuel raw.dataSize NONE raw).run e0 =
      .ok () (e0.withOption tx1) := by
    simp only [addPacket, EStateM.run_bind, _getMaxPayloadSize_run _ htx0 h8.ge]
    rw [if_neg (by omega), hsize]
    exact hadd
  -- so it is sent
  obtain ⟨e1, he1⟩ : ∃ e1, e1 = e0.withOption tx1 := ⟨_, rfl⟩
  have hn1 : e1.packet_format = NONE := by rw [he1]; exact hn0
  rcases _flush_run T.encoder (e := e1) (by rw [he1]; rfl) (by omega) with
    ⟨hempty, -⟩ | ⟨sent, tx2, -, hsent, hflush⟩
  · rw [he1, PacketEncoder.withOption, he0] at hempty
    exact absurd hempty havail
  obtain ⟨e2, he2⟩ : ∃ e2, (_flush T.encoder).run e1 = .ok () e2 := ⟨_, hflush⟩
  obtain ⟨-, he2'⟩ := EStateM.Result.ok.inj (he2.symm.trans hflush)
  obtain ⟨e3, hinflight, hpool3, hn3⟩ : ∃ e3, _flushInflight.run e2 = .ok () e3 ∧
      e3.tx_buffer_pool = e2.tx_buffer_pool ∧ e3.packet_format = e2.packet_format := by
    obtain ⟨pool, hrun⟩ := _flushInflight_run (e := e2)
    exact ⟨_, hrun, rfl, rfl⟩
  have hfull : (flushIfFull T.encoder).run e1 = (_flushInflight : EncoderCall H T.B Unit).run e2 := by
    have htx : e1.tx_buffer = some tx1 := by rw [he1]; rfl
    simp only [flushIfFull, EStateM.run_bind,
      _getMaxPayloadSize_run _ htx (show PacketHeader.size ≤ tx1.dataSize by omega)]
    rw [if_pos (by omega)]
    simp only [EStateM.run_bind, he2]
  have hn3 : e3.packet_format = NONE := by rw [hn3, he2']; exact hn1
  have hrelease : (release raw).run e3 = (pushAvailable raw).run e3 := by
    simp only [release, EStateM.run_bind, EStateM.run_get, hn3, ne_eq, not_true, false_and, if_false]
  refine ⟨{ e3 with available_buffer_pool := ⟨e3.available_buffer_pool.pool ++ [raw]⟩ }, ?_, sent,
    ?_, ?_⟩
  · simp only [encode, hsize, if_neg hacc, EStateM.run_bind, EStateM.run_modify, ← he0, hcomp, hpacket,
      ← he1, hfull, hinflight, hrelease]
    exact pushAvailable_run raw e3
  · simp [hpool3, he2']
  · rw [← sent.data_length, hsent]
    simp only [List.length_append, List.length_drop, PacketHeader.bytes_length,
      PacketBuffer.data_length]
    omega

/-- **A full packet is sent** by some run without compression, on any sizes and to any address. -/
theorem exists_full_datagram {T : Tunnel H} (fuel : Nat) (hn : T.packet_format = NONE) :
    ∃ seq available ops e, T.encoderRun fuel seq available ops = .ok () e ∧
      ∃ b ∈ e.tx_buffer_pool.pool, b.dataSize = T.l4mtu := by
  have hbounds := T.size_bounds
  have hs8 : PacketHeader.size = 8 := rfl
  obtain ⟨raw, hraw⟩ : ∃ raw : PacketBuffer T.B, raw.dataSize + 16 = T.l4mtu := by
    refine ⟨.ofData 3 (List.replicate (T.l4mtu - 16) 0) ?_, ?_⟩
    · rw [List.length_replicate]
      omega
    · simp only [PacketBuffer.ofData, List.length_replicate]
      omega
  obtain ⟨b, hb⟩ : ∃ b : PacketBuffer T.B, b = .ofData 0 [] (Nat.zero_le _) := ⟨_, rfl⟩
  rcases _getTxBuffer_run (e := { (init ⟨[]⟩ ⟨[b, b]⟩ : PacketEncoder H T.B) with
      comp_buffer := some b }) (show PacketHeader.size ≤ T.B by omega) with ⟨h, -⟩ | ⟨tx, h8, hnew⟩
  · cases h
  obtain ⟨e, hrun, hfull⟩ := encode_fills fuel (e := { (init ⟨[]⟩ ⟨[b]⟩ :
    PacketEncoder H T.B) with comp_buffer := some b, tx_buffer := some tx }) rfl rfl h8
    (List.cons_ne_nil _ _) hraw
  refine ⟨1, [b, b, b], [.encode raw], e, ?_, hfull⟩
  have hstart : (T.encoderCalls fuel 1 [.encode raw]).run (init ⟨[]⟩ ⟨[b, b, b]⟩) =
      (do _getTxBuffer; setSequence 1; setPacketFormat T.libs T.packet_format
          Call.runAll (step T.encoder fuel) [.encode raw] : EncoderCall H T.B Unit).run
        { (init ⟨[]⟩ ⟨[b, b]⟩ : PacketEncoder H T.B) with comp_buffer := some b } := rfl
  rw [Tunnel.encoderRun, hstart, EStateM.run_bind, hnew]
  simp only [EStateM.run_bind, setSequence, EStateM.run_modify, setPacketFormat, hn, if_true,
    Call.runAll, step]
  simp only [init, List.tail_cons] at hrun ⊢
  simp only [hrun, EStateM.run_pure]

/-- **The transmission size bounds what is sent exactly when the address is not misread**: to any
IPv4 or IPv6 address that is read right, every run of every tunnel keeps within it, and to any
other one some run does not. -/
theorem fitsTxSize_iff (sizes : Sizes) {addr : SockaddrStorage}
    (haddr : ∀ family, addr ≠ .other family) :
    (∀ (H : Type) (T : Tunnel H), T.sizes = sizes → T.dst_addr = addr → Bounded T → FitsTxSize T) ↔
      ¬Misread addr := by
  constructor
  · intro h hmis
    let T : Tunnel (List (List UInt8)) :=
      { Tunnel.smallest addr with sizes := sizes }
    obtain ⟨seq, available, ops, e, hrun, b, hb, hsize⟩ :=
      exists_full_datagram (T := T) T.B rfl
    have hfits := h _ T rfl rfl (fun hn => absurd rfl hn) T.B seq available ops e (Nat.le_refl _)
      hrun b hb
    have htx := T.l4mtu_eq
    have hdst : T.dst_addr = addr := rfl
    have hnode : ipHeaderSize T.node.node_addr = ipHeaderSize addr := ipHeaderSize_to_ipv6 addr
    rcases is_ipv4_header haddr with ⟨-, hright⟩ | ⟨hv4, h40, -⟩
    · exact hright hmis
    · rw [hdst, hv4, if_pos rfl] at htx
      omega
  · rintro hright H T rfl rfl hlib fuel seq available ops e hfuel hrun b hb
    have hle := dataSize_le_of_run hlib hfuel hrun b hb
    have htx := T.l4mtu_eq
    have hnode : ipHeaderSize T.node.node_addr = ipHeaderSize T.dst_addr :=
      ipHeaderSize_to_ipv6 T.dst_addr
    rcases is_ipv4_header haddr with ⟨hheader, -⟩ | ⟨-, -, hmis⟩
    · split at htx <;> split at hheader <;> omega
    · exact absurd hmis hright

/-- To an IPv4 address. -/
theorem fitsTxSize_iff_inet :
    (∀ (H : Type) (T : Tunnel H), T.sizes = (Tunnel.smallest (.other 0)).sizes →
        T.dst_addr = .inet 58023 #v[192, 0, 2, 1] → Bounded T → FitsTxSize T) ↔
      ¬Misread (.inet 58023 #v[192, 0, 2, 1]) :=
  fitsTxSize_iff _ fun _ h => nomatch h

/-- To `2001:db8::ffff:0:1`, a frame of 1156 bytes is sent in 1220 bytes for a transmission size
of 1200. -/
theorem tx_size_exceeded :
    ¬FitsTxSize (Tunnel.smallest (.inet6 58023 0
      #v[0x20, 0x01, 0x0d, 0xb8, 0, 0, 0, 0, 0, 0, 0xff, 0xff, 0, 0, 0, 1] 0)) := by
  intro h
  have hfits := h 2000 1 (PacketBuffer.fresh 0 3)
    [.encode (.ofData 3 (List.replicate 1156 0) (by rw [List.length_replicate]; decide))]
  have hsizes : (match (Tunnel.smallest (.inet6 58023 0
        #v[0x20, 0x01, 0x0d, 0xb8, 0, 0, 0, 0, 0, 0, 0xff, 0xff, 0, 0, 0, 1] 0)).encoderRun 2000 1
        (PacketBuffer.fresh 0 3)
        [.encode (.ofData 3 (List.replicate 1156 0) (by rw [List.length_replicate]; decide))] with
      | .ok _ e => e.tx_buffer_pool.pool.map PacketBuffer.dataSize
      | .error _ _ => []) = [1172] := by decide +kernel
  split at hsizes
  · rename_i e hrun
    obtain ⟨b, hb, hsize⟩ : ∃ b ∈ e.tx_buffer_pool.pool, b.dataSize = 1172 :=
      List.mem_map.mp (hsizes ▸ List.mem_singleton_self 1172)
    have := hfits e (by decide) hrun b hb
    rw [hsize] at this
    revert this
    decide
  · cases hsizes

end SuperEthd
