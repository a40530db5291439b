import SuperEthd.Address
import Mathlib.Data.UInt

/-! # Sizes

The MTU and transmission size `PacketSwitch` accepts, the sizes that follow from them, and
what `RemoteNode` leaves for the payload of a UDP packet to its destination. -/
namespace SuperEthd

/-- `SETH_MIN_TXSIZE`. -/
def SETH_MIN_TXSIZE : Nat := 1200

/-- `SETH_MAX_TXSIZE`. -/
def SETH_MAX_TXSIZE : Nat := 9218

/-- `SETH_MIN_MTU_SIZE`. -/
def SETH_MIN_MTU_SIZE : Nat := 1200

/-- `SETH_MAX_MTU_SIZE`. -/
def SETH_MAX_MTU_SIZE : Nat := 9218

/-- An MTU and transmission size that pass the checks of `PacketSwitch`. -/
structure Sizes where
  mtu : Nat
  tx_size : Nat
  mtu_le : mtu ≤ SETH_MAX_MTU_SIZE
  le_tx_size : SETH_MIN_TXSIZE ≤ tx_size
  tx_size_le : tx_size ≤ mtu

/-- `get_l2mtu_from_mtu`. -/
def get_l2mtu_from_mtu (mtu : UInt16) : UInt16 := mtu + (14 + 8)

namespace Sizes

/-- The checks of the constructor of `PacketSwitch`, in its order. -/
def check (mtu tx_size : Int) : Except String Sizes :=
  if h1 : mtu > SETH_MAX_MTU_SIZE then
    .error ("Maximum MTU is " ++ toString SETH_MAX_MTU_SIZE ++ "!")
  else if mtu < SETH_MIN_MTU_SIZE then
    .error ("Minimum MTU is " ++ toString SETH_MIN_MTU_SIZE ++ "!")
  else if tx_size > SETH_MAX_TXSIZE then
    .error ("Maximum TX_SIZE is " ++ toString SETH_MAX_TXSIZE ++ "!")
  else if h2 : tx_size < SETH_MIN_TXSIZE then
    .error ("Minimum TX_SIZE is " ++ toString SETH_MIN_TXSIZE ++ "!")
  else if h3 : tx_size > mtu then
    .error ("TX_SIZE " ++ toString tx_size ++ " cannot be greater than MTU is " ++ toString mtu ++
      "!")
  else
    .ok ⟨mtu.toNat, tx_size.toNat, by omega, by omega, by omega⟩

/-- **Every value of `Sizes` is accepted by the checks**, and they accept nothing else. -/
theorem check_eq_ok {mtu tx_size : Int} {s : Sizes} :
    check mtu tx_size = .ok s ↔ mtu = s.mtu ∧ tx_size = s.tx_size := by
  obtain ⟨m, t, h1, h2, h3⟩ := s
  have h4 : SETH_MIN_MTU_SIZE = SETH_MIN_TXSIZE := rfl
  have h5 : SETH_MAX_MTU_SIZE = SETH_MAX_TXSIZE := rfl
  unfold check
  constructor
  · intro h
    split at h
    · cases h
    split at h
    · cases h
    split at h
    · cases h
    split at h
    · cases h
    split at h
    · cases h
    simp only [Except.ok.injEq, Sizes.mk.injEq] at h ⊢
    omega
  · rintro ⟨rfl, rfl⟩
    simp only at *
    rw [dif_neg (by omega), if_neg (by omega), if_neg (by omega), dif_neg (by omega),
      dif_neg (by omega)]
    rfl

variable (s : Sizes)

/-- The `l2mtu` of the switch. -/
def l2mtu : UInt16 := get_l2mtu_from_mtu (UInt16.ofNat s.mtu)

/-- The size of every buffer in its pools: 10% over the largest frame. -/
def buffer_size : Nat := s.l2mtu.toNat + s.l2mtu.toNat / 10

theorem l2mtu_toNat : s.l2mtu.toNat = s.mtu + 22 := by
  have h1 := s.mtu_le
  simp only [SETH_MAX_MTU_SIZE] at h1
  simp only [l2mtu, get_l2mtu_from_mtu, UInt16.toNat_add, UInt16.toNat_ofNat',
    UInt16.reduceAdd, UInt16.reduceToNat]
  omega

theorem bounds : 1200 ≤ s.tx_size ∧ s.tx_size ≤ s.mtu ∧ s.mtu ≤ 9218 :=
  ⟨s.le_tx_size, s.tx_size_le, s.mtu_le⟩

end Sizes
end SuperEthd
