import SuperEthd.Address

/-! # The views of an address

Which host an address stands for, against the key that nodes are looked up by, the form that the socket
is given, and the test for IPv4. -/
namespace SuperEthd

/-- A host: an IPv4 address and its mapped form are the same one. -/
inductive Host
  | ipv4 (addr : InAddr)
  | ipv6 (addr : In6Addr)
  deriving DecidableEq

/-- The IPv4 address behind `::ffff:0:0/96`. -/
def unmappedAddr (a : In6Addr) : InAddr := #v[a[12], a[13], a[14], a[15]]

/-- The host that an address stands for. -/
def SockaddrStorage.host : SockaddrStorage → Option Host
  | .inet _ addr => some (.ipv4 addr)
  | .inet6 _ _ addr _ => some (if InMappedBlock addr then .ipv4 (unmappedAddr addr) else .ipv6 addr)
  | .other _ => none

theorem unmappedAddr_mappedAddr (a : InAddr) : unmappedAddr (mappedAddr a) = a := by
  apply Vector.ext
  intro i hi
  match i, hi with
  | 0, _ | 1, _ | 2, _ | 3, _ => rfl

theorem mappedAddr_injective : Function.Injective mappedAddr := by
  intro a b h
  rw [← unmappedAddr_mappedAddr a, h, unmappedAddr_mappedAddr]

/-- The block is the mapped IPv4 addresses. -/
theorem mappedAddr_unmappedAddr {a : In6Addr} (h : InMappedBlock a) : mappedAddr (unmappedAddr a) = a := by
  obtain ⟨hzeros, h10, h11⟩ := h
  apply Vector.ext
  intro i hi
  by_cases hlt : i < 10
  · rw [(mappedAddr_inMappedBlock _).1 i hlt, hzeros i hlt]
  · obtain rfl | rfl | rfl | rfl | rfl | rfl :
        i = 10 ∨ i = 11 ∨ i = 12 ∨ i = 13 ∨ i = 14 ∨ i = 15 := by omega
    · exact h10.symm
    · exact h11.symm
    · rfl
    · rfl
    · rfl
    · rfl

/-- The key of a host. -/
def Host.key : Host → In6Addr
  | .ipv4 addr => mappedAddr addr
  | .ipv6 addr => addr

/-- **The key** is that of the host. -/
theorem get_key_eq (a : SockaddrStorage) : get_key_from_sockaddr a = a.host.map Host.key := by
  cases a with
  | inet port addr => rfl
  | other family => rfl
  | inet6 port flowinfo addr scope =>
    by_cases h : InMappedBlock addr
    · rw [SockaddrStorage.host, if_pos h]
      exact congrArg some (mappedAddr_unmappedAddr h).symm
    · rw [SockaddrStorage.host, if_neg h]
      rfl

/-- An IPv6 host is outside the mapped block. -/
theorem host_ipv6 {a : SockaddrStorage} {addr : In6Addr} (h : a.host = some (.ipv6 addr)) :
    ¬InMappedBlock addr := by
  cases a with
  | inet port addr' => cases h
  | other family => cases h
  | inet6 port flowinfo addr' scope =>
    intro hmapped
    by_cases h' : InMappedBlock addr'
    · rw [SockaddrStorage.host, if_pos h'] at h
      cases h
    · rw [SockaddrStorage.host, if_neg h'] at h
      cases h
      exact h' hmapped

/-- **Two addresses have one key** just if they stand for one host. -/
theorem get_key_eq_iff {a b : SockaddrStorage} :
    get_key_from_sockaddr a = get_key_from_sockaddr b ↔ a.host = b.host := by
  rw [get_key_eq, get_key_eq]
  constructor
  · intro h
    cases ha : a.host with
    | none =>
      rw [ha] at h
      cases hb : b.host with
      | none => rfl
      | some y =>
        rw [hb] at h
        cases h
    | some x =>
      cases hb : b.host with
      | none =>
        rw [ha, hb] at h
        cases h
      | some y =>
        rw [ha, hb] at h
        have hkey : x.key = y.key := Option.some.inj h
        cases x with
        | ipv4 addr =>
          cases y with
          | ipv4 addr' => rw [mappedAddr_injective hkey]
          | ipv6 addr' =>
            have hkey' : mappedAddr addr = addr' := hkey
            exact absurd (hkey' ▸ mappedAddr_inMappedBlock addr) (host_ipv6 hb)
        | ipv6 addr =>
          cases y with
          | ipv4 addr' =>
            have hkey' : addr = mappedAddr addr' := hkey
            exact absurd (hkey' ▸ mappedAddr_inMappedBlock addr') (host_ipv6 ha)
          | ipv6 addr' => rw [show addr = addr' from hkey]
  · intro h
    rw [h]

/-- **The views agree** on an address. -/
structure ViewsAgree (a : SockaddrStorage) : Prop where
  converted : get_key_from_sockaddr (to_sockaddr_storage_ipv6 a) = get_key_from_sockaddr a
  same_host : ∀ b, get_key_from_sockaddr a = get_key_from_sockaddr b ↔ a.host = b.host
  ipv4 : is_ipv4 a = true ↔ ∃ key, get_key_from_sockaddr a = some key ∧ InMappedBlock key

/-- **The three views**: the key is the same for the converted address and tells hosts apart, whatever
the address; `is_ipv4` fits it just if the address is an IPv6 one that is not misread. -/
theorem viewsAgree_iff (a : SockaddrStorage) (ha : ∀ family, a ≠ .other family) :
    ViewsAgree a ↔ (∀ port addr, a ≠ .inet port addr) ∧ ¬Misread a := by
  cases a with
  | other family => exact absurd rfl (ha family)
  | inet port addr =>
    refine iff_of_false (fun h => ?_) fun h => h.1 port addr rfl
    have htrue : is_ipv4 (.inet port addr) = true :=
      h.ipv4.mpr ⟨_, rfl, mappedAddr_inMappedBlock addr⟩
    cases htrue
  | inet6 port flowinfo addr scope =>
    have hview : is_ipv4 (.inet6 port flowinfo addr scope) = true ↔ addr[10] = 0xff ∧ addr[11] = 0xff := by
      simp only [is_ipv4, Bool.and_eq_true, beq_iff_eq]
    constructor
    · intro h
      refine ⟨?_, ?_⟩
      · intro _ _ hne
        cases hne
      rintro ⟨h10, h11, hoff⟩
      obtain ⟨key, hkey, hmapped⟩ := h.ipv4.mp (hview.mpr ⟨h10, h11⟩)
      cases hkey
      exact hoff hmapped
    · rintro ⟨-, hright⟩
      refine ⟨rfl, fun b => get_key_eq_iff, ?_⟩
      rw [hview]
      constructor
      · rintro ⟨h10, h11⟩
        refine ⟨addr, rfl, ?_⟩
        by_contra hoff
        exact hright ⟨h10, h11, hoff⟩
      · rintro ⟨key, hkey, hmapped⟩
        cases hkey
        exact hmapped.2

/-- `::ffff:192.0.2.1`. -/
theorem viewsAgree_iff_mapped :
    ViewsAgree (.inet6 58023 0 (mappedAddr #v[192, 0, 2, 1]) 0) := by
  have hfamily : ∀ family, SockaddrStorage.inet6 58023 0 (mappedAddr #v[192, 0, 2, 1]) 0 ≠ .other family := by
    intro family h
    cases h
  refine (viewsAgree_iff _ hfamily).mpr ⟨?_, ?_⟩
  · intro port addr h
    cases h
  · rintro ⟨-, -, hoff⟩
    exact hoff (mappedAddr_inMappedBlock _)

/-- **`192.0.2.1` is not taken for IPv4**, though its key is in the mapped block, and
`2001:db8::ffff:0:1` is, though its key is not. -/
theorem ipv4_not_recognized :
    ¬ViewsAgree (.inet 58023 #v[192, 0, 2, 1]) ∧
    ¬ViewsAgree (.inet6 58023 0
      #v[0x20, 0x01, 0x0d, 0xb8, 0, 0, 0, 0, 0, 0, 0xff, 0xff, 0, 0, 0, 1] 0) := by
  constructor
  · intro h
    have htrue := h.ipv4.mpr ⟨_, rfl, mappedAddr_inMappedBlock _⟩
    cases htrue
  · intro h
    obtain ⟨key, hkey, hmapped⟩ := h.ipv4.mp rfl
    cases hkey
    exact absurd (hmapped.1 0 (by decide)) (by decide)

end SuperEthd
