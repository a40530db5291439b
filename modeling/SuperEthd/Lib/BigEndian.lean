import Mathlib.Data.UInt

/-! # Big-endian fields

Two- and four-byte fields in network order, and their reading back. -/
namespace BigEndian

/-- The two bytes of `n`, most significant first; `n` is cut to 16 bits. -/
def bytes16 (n : Nat) : List UInt8 := [UInt8.ofNat (n / 256), UInt8.ofNat n]

/-- The number two bytes stand for. -/
def read16 (hi lo : UInt8) : Nat := hi.toNat * 256 + lo.toNat

/-- The four bytes of `n`, most significant first. -/
def bytes32 (n : UInt32) : List UInt8 :=
  [UInt8.ofNat (n.toNat / 16777216), UInt8.ofNat (n.toNat / 65536),
    UInt8.ofNat (n.toNat / 256), UInt8.ofNat n.toNat]

/-- The number four bytes stand for. -/
def read32 (a b c d : UInt8) : UInt32 :=
  UInt32.ofNat (a.toNat * 16777216 + b.toNat * 65536 + c.toNat * 256 + d.toNat)

@[simp] theorem bytes16_length (n : Nat) : (bytes16 n).length = 2 := rfl

@[simp] theorem bytes32_length (n : UInt32) : (bytes32 n).length = 4 := rfl

theorem read16_lt (hi lo : UInt8) : read16 hi lo < 65536 := by
  have h1 := hi.toNat_lt
  have h2 := lo.toNat_lt
  unfold read16
  omega

/-- **Round trip** of a 16-bit field. -/
theorem read16_bytes16 {n : Nat} (h : n < 65536) :
    read16 (UInt8.ofNat (n / 256)) (UInt8.ofNat n) = n := by
  simp only [read16, UInt8.toNat_ofNat']
  omega

/-- **Round trip** of a 32-bit field. -/
theorem read32_bytes32 (n : UInt32) :
    read32 (UInt8.ofNat (n.toNat / 16777216)) (UInt8.ofNat (n.toNat / 65536))
      (UInt8.ofNat (n.toNat / 256)) (UInt8.ofNat n.toNat) = n := by
  have hn := n.toNat_lt
  apply UInt32.toNat_inj.mp
  simp only [read32, UInt8.toNat_ofNat', UInt32.toNat_ofNat']
  omega

end BigEndian
