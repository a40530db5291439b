import SuperEthd.Lib.KeyedList
import Mathlib.Data.UInt

/-! # The forwarding database

`FDB` and `FDBEntry`.  The clock is an argument of the operations that read it, in the nanoseconds
of `steady_clock`; the destination of an entry is a shared pointer, null for a local station. -/
namespace SuperEthd

/-- An Ethernet address, in network order. -/
abbrev FDBMACAddress := Vector UInt8 6

/-- The test on the first byte of an address that both handlers make. -/
def isMulticast (mac : FDBMACAddress) : Bool := mac[0] &&& 0x01 != 0

structure FDBEntry (Node : Type) where
  key : FDBMACAddress
  dest : Option Node
  last_seen : Int
  deriving DecidableEq

namespace FDBEntry
variable {Node : Type}

def isLocal (entry : FDBEntry Node) : Bool := entry.dest.isNone

def updateLastSeen (now : Int) (entry : FDBEntry Node) : FDBEntry Node :=
  { entry with last_seen := now }

@[simp] theorem key_updateLastSeen (now : Int) (entry : FDBEntry Node) :
    (entry.updateLastSeen now).key = entry.key := rfl

end FDBEntry

/-- `duration_cast<std::chrono::seconds>(now - since).count()`, which rounds towards zero. -/
def secondsSince (since now : Int) : Int := (now - since).tdiv 1000000000

/-- **The database**, which has at most one entry for an address. -/
abbrev FDB (Node : Type) := KeyedList (@FDBEntry.key Node)

namespace FDB
variable {Node : Type} (fdb : FDB Node)

def get (mac : FDBMACAddress) : Option (FDBEntry Node) := fdb.find? mac

/-- `getRemoteNode` returns the entry, not the node. -/
def getRemoteNode (dst_mac : FDBMACAddress) : Option (FDBEntry Node) := fdb.find? dst_mac

/-- `add`: an entry that exists is returned as it is. -/
def add (mac : FDBMACAddress) (dest : Option Node) (now : Int) : FDBEntry Node × FDB Node :=
  match h : fdb.find? mac with
  | some entry => (entry, fdb)
  | none => (⟨mac, dest, now⟩, fdb.insertNew ⟨mac, dest, now⟩ h)

/-- What `updateLastSeen` on the shared entry of `mac` does to the database. -/
def updateLastSeen (mac : FDBMACAddress) (now : Int) : FDB Node :=
  fdb.adjust mac (FDBEntry.updateLastSeen now) (FDBEntry.key_updateLastSeen now)

def expireEntries (expire_time now : Int) : FDB Node :=
  fdb.filter fun entry => !decide (secondsSince entry.last_seen now > expire_time)

variable {fdb} {mac mac' : FDBMACAddress} {dest : Option Node} {now : Int} {entry : FDBEntry Node}

theorem add_of_some (h : fdb.get mac = some entry) : fdb.add mac dest now = (entry, fdb) := by
  unfold add
  split
  case h_1 e he => rw [Option.some.inj (he.symm.trans h)]
  case h_2 he => cases he.symm.trans h

theorem get_add_self (h : fdb.get mac = none) :
    (fdb.add mac dest now).2.get mac = some ⟨mac, dest, now⟩ := by
  unfold add
  split
  case h_1 e he => cases he.symm.trans h
  case h_2 he => exact KeyedList.find?_insertNew_self he

theorem get_add_of_ne (hne : mac ≠ mac') : (fdb.add mac dest now).2.get mac' = fdb.get mac' := by
  unfold add
  split
  case h_1 => rfl
  case h_2 he => exact KeyedList.find?_insertNew_of_ne he hne

theorem get_updateLastSeen_self :
    (fdb.updateLastSeen mac now).get mac = (fdb.get mac).map (FDBEntry.updateLastSeen now) :=
  KeyedList.find?_adjust_self (FDBEntry.key_updateLastSeen now)

theorem get_updateLastSeen_of_ne (hne : mac' ≠ mac) :
    (fdb.updateLastSeen mac now).get mac' = fdb.get mac' :=
  KeyedList.find?_adjust_of_ne (FDBEntry.key_updateLastSeen now) hne

theorem get_expireEntries (expire_time : Int) :
    (fdb.expireEntries expire_time now).get mac = (fdb.get mac).filter fun entry =>
      !decide (secondsSince entry.last_seen now > expire_time) :=
  KeyedList.find?_filter _

end FDB
end SuperEthd
