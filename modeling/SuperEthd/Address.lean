import Mathlib.Data.UInt

/-! # Socket addresses

`sockaddr_storage` and the three functions of `util.cpp` that classify an address: the
node key used to look a sender up, the form given to the dual-stack socket, and the test
that decides how many header bytes the path takes. -/
namespace SuperEthd

/-- An IPv6 address, in network order. -/
abbrev In6Addr := Vector UInt8 16

/-- An IPv4 address, in network order. -/
abbrev InAddr := Vector UInt8 4

/-- A `sockaddr_storage` by its `ss_family`: `AF_INET`, `AF_INET6` or another family,
whose contents no function reads. -/
inductive SockaddrStorage
  | inet (sin_port : UInt16) (sin_addr : InAddr)
  | inet6 (sin6_port : UInt16) (sin6_flowinfo : UInt32) (sin6_addr : In6Addr)
      (sin6_scope_id : UInt32)
  | other (ss_family : UInt16)
  deriving DecidableEq

/-- `::ffff:0:0/96` followed by an IPv4 address. -/
def mappedAddr (a : InAddr) : In6Addr :=
  #v[0, 0, 0, 0, 0, 0, 0, 0, 0, 0, 0xff, 0xff, a[0], a[1], a[2], a[3]]

/-- `is_ipv4`, converted to `bool` as its result type is: the `0` of the `AF_INET` branch is
`false` and the `-1` of an unsupported family is `true`. -/
def is_ipv4 : SockaddrStorage → Bool
  | .inet _ _ => false
  | .inet6 _ _ addr _ => addr[10] == 0xff && addr[11] == 0xff
  | .other _ => true

/-- `get_key_from_sockaddr`.  For another family the key is left uninitialised: `none`. -/
def get_key_from_sockaddr : SockaddrStorage → Option In6Addr
  | .inet _ addr => some (mappedAddr addr)
  | .inet6 _ _ addr _ => some addr
  | .other _ => none

/-- `to_sockaddr_storage_ipv6`.  For another family the result stays zeroed. -/
def to_sockaddr_storage_ipv6 : SockaddrStorage → SockaddrStorage
  | .inet port addr => .inet6 port 0 (mappedAddr addr) 0
  | .inet6 port flowinfo addr scope => .inet6 port flowinfo addr scope
  | .other _ => .other 0

/-- The IPv4-mapped block `::ffff:0:0/96`. -/
def InMappedBlock (a : In6Addr) : Prop :=
  (∀ i (h : i < 10), a[i] = 0) ∧ a[10] = 0xff ∧ a[11] = 0xff

instance (a : In6Addr) : Decidable (InMappedBlock a) := inferInstanceAs (Decidable (_ ∧ _))

/-- An IPv6 address that `is_ipv4` takes for IPv4: it has the `ffff` of the mapped block, but
something else than zeros before it. -/
def Misread : SockaddrStorage → Prop
  | .inet6 _ _ addr _ => addr[10] = 0xff ∧ addr[11] = 0xff ∧ ¬InMappedBlock addr
  | _ => False

instance : DecidablePred Misread
  | .inet6 _ _ addr _ => inferInstanceAs (Decidable (_ ∧ _ ∧ ¬InMappedBlock addr))
  | .inet _ _ => inferInstanceAs (Decidable False)
  | .other _ => inferInstanceAs (Decidable False)

theorem mappedAddr_inMappedBlock (a : InAddr) : InMappedBlock (mappedAddr a) := by
  refine ⟨fun i h => ?_, rfl, rfl⟩
  match i, h with
  | 0, _ | 1, _ | 2, _ | 3, _ | 4, _ | 5, _ | 6, _ | 7, _ | 8, _ | 9, _ => rfl

end SuperEthd
