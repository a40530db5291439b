import Mathlib.Data.Nat.ModEq
import SuperEthd.Lib.BigEndian

/-! # One's-complement sums

The end-around carry in base `b` adds what is above the lowest digit onto it until one digit is left.
That digit is congruent to the number modulo `b - 1`, and zero for zero only; so a sum and the
complement of its digit add up to the digit `b - 1` (`fold_add_complement`), and it makes no difference
whether the carry is added at every addition or once at the end (`foldl_addCarry`).  The Internet
checksum is the case of 16-bit digits, over the big-endian words of a list of bytes. -/
namespace OnesComplement
open BigEndian

/-- The end-around carry. -/
def fold (b n : Nat) : Nat := if 1 < b ∧ b ≤ n then fold b (n % b + n / b) else n
termination_by n
decreasing_by
  rename_i h
  have h1 := Nat.div_add_mod n b
  have h2 : 0 < n / b := Nat.div_pos h.2 (by omega)
  have h3 : 2 * (n / b) ≤ b * (n / b) := Nat.mul_le_mul_right _ h.1
  omega

section Fold
variable {b n : Nat}

theorem fold_of_lt (h : n < b) : fold b n = n := by
  rw [fold, if_neg fun hb => absurd hb.2 (Nat.not_le_of_gt h)]

theorem fold_of_le (hb : 1 < b) (h : b ≤ n) : fold b n = fold b (n % b + n / b) := by
  rw [fold, if_pos ⟨hb, h⟩]

theorem fold_lt (hb : 1 < b) : fold b n < b := by
  fun_induction fold b n with
  | case1 n h ih => exact ih
  | case2 n h => exact Nat.lt_of_not_le fun hle => h ⟨hb, hle⟩

/-- A step of the carry takes `b - 1` off for each unit it carries. -/
theorem mod_add_div_modEq (hb : 1 < b) : n % b + n / b ≡ n [MOD b - 1] := by
  have h1 := Nat.mod_add_div n b
  have h2 : b * (n / b) = (b - 1) * (n / b) + n / b := by
    rw [Nat.sub_one_mul, Nat.sub_add_cancel (Nat.le_mul_of_pos_left _ (by omega))]
  have h3 : n % b + n / b + (b - 1) * (n / b) = n := by omega
  calc n % b + n / b ≡ n % b + n / b + (b - 1) * (n / b) [MOD b - 1] := by
        exact (Nat.modEq_iff_dvd' (Nat.le_add_right _ _)).mpr ⟨n / b, Nat.add_sub_cancel_left ..⟩
    _ = n := h3

theorem fold_modEq (hb : 1 < b) : fold b n ≡ n [MOD b - 1] := by
  fun_induction fold b n with
  | case1 n h ih => exact ih.trans (mod_add_div_modEq hb)
  | case2 n h => exact Nat.ModEq.refl n

/-- Nothing but zero folds to zero. -/
theorem fold_eq_zero : fold b n = 0 ↔ n = 0 := by
  fun_induction fold b n with
  | case1 n h ih =>
    rw [ih]
    have h1 : 0 < n / b := Nat.div_pos h.2 (by omega)
    omega
  | case2 n h => rfl

/-- **All ones** is what the positive multiples of `b - 1` fold to. -/
theorem fold_eq_top (hb : 1 < b) : fold b n = b - 1 ↔ n ≠ 0 ∧ b - 1 ∣ n := by
  have hmod : fold b n ≡ n [MOD b - 1] := fold_modEq hb
  have hlt : fold b n < b := fold_lt hb
  constructor
  · intro h
    refine ⟨fun h0 => ?_, ?_⟩
    · have hzero : fold b n = 0 := fold_eq_zero.mpr h0
      omega
    · rw [h] at hmod
      exact (Nat.modEq_zero_iff_dvd.mp (hmod.symm.trans (Nat.modEq_zero_iff_dvd.mpr dvd_rfl)))
  · rintro ⟨h0, hdvd⟩
    have hpos : fold b n ≠ 0 := fun h => h0 (fold_eq_zero.mp h)
    have hfold : b - 1 ∣ fold b n :=
      Nat.modEq_zero_iff_dvd.mp (hmod.trans (Nat.modEq_zero_iff_dvd.mpr hdvd))
    have hle := Nat.le_of_dvd (Nat.pos_of_ne_zero hpos) hfold
    omega

/-- A number and the complement of its digit. -/
theorem dvd_add_complement (hb : 1 < b) : b - 1 ∣ n + (b - 1 - fold b n) := by
  have hlt : fold b n < b := fold_lt hb
  have hmod : fold b n + (b - 1 - fold b n) ≡ n + (b - 1 - fold b n) [MOD b - 1] :=
    (fold_modEq hb).add_right _
  rw [Nat.add_sub_cancel' (by omega)] at hmod
  exact Nat.modEq_zero_iff_dvd.mp (hmod.symm.trans (Nat.modEq_zero_iff_dvd.mpr dvd_rfl))

theorem add_complement_ne_zero (hb : 1 < b) : n + (b - 1 - fold b n) ≠ 0 := by
  intro h
  have hzero : fold b n = 0 := fold_eq_zero.mpr (by omega)
  omega

/-- **The checksum rule**: a number and the complement of its digit fold to all ones. -/
theorem fold_add_complement (hb : 1 < b) : fold b (n + (b - 1 - fold b n)) = b - 1 :=
  (fold_eq_top hb).mpr ⟨add_complement_ne_zero hb, dvd_add_complement hb⟩

/-- Congruent numbers have the same digit, if both or none of them are zero. -/
theorem fold_congr {m : Nat} (hb : 1 < b) (h : m ≡ n [MOD b - 1]) (hzero : m = 0 ↔ n = 0) :
    fold b m = fold b n := by
  have hm : fold b m < b := fold_lt hb
  have hn : fold b n < b := fold_lt hb
  have htop : fold b m = b - 1 ↔ fold b n = b - 1 := by
    rw [fold_eq_top hb, fold_eq_top hb, ne_eq, ne_eq, hzero, h.dvd_iff dvd_rfl]
  by_cases hones : fold b m = b - 1
  · rw [hones, htop.mp hones]
  · have hones' : fold b n ≠ b - 1 := fun h => hones (htop.mpr h)
    have hmod : fold b m ≡ fold b n [MOD b - 1] :=
      (fold_modEq hb).trans (h.trans (fold_modEq hb).symm)
    exact hmod.eq_of_lt_of_lt (by omega) (by omega)

/-- The carry may be added in between. -/
theorem fold_fold_add {m : Nat} (hb : 1 < b) : fold b (fold b m + n) = fold b (m + n) := by
  refine fold_congr hb ((fold_modEq hb).add_right n) ?_
  rw [Nat.add_eq_zero_iff, Nat.add_eq_zero_iff, fold_eq_zero]

/-- **One's-complement addition** of two digits: the carry is added to the lowest digit. -/
def addCarry (b m n : Nat) : Nat := (m + n) % b + (m + n) / b

theorem addCarry_eq {m : Nat} (hm : m < b) (hn : n < b) : addCarry b m n = fold b (m + n) := by
  have hdiv := Nat.div_add_mod (m + n) b
  rcases Nat.lt_or_ge (m + n) b with hlt | hle
  · rw [addCarry, fold_of_lt hlt, Nat.mod_eq_of_lt hlt, Nat.div_eq_of_lt hlt, Nat.add_zero]
  · -- two digits carry at most one
    have hone : (m + n) / b = 1 := by
      rw [Nat.div_eq_iff (by omega)]
      omega
    rw [hone] at hdiv
    rw [fold_of_le (by omega) hle, hone, fold_of_lt (by omega), addCarry, hone]

/-- **Adding digits one by one**, each time with the carry, is the end-around carry of their sum. -/
theorem foldl_addCarry {m : Nat} {ns : List Nat} (hb : 1 < b) (hm : m < b) (h : ∀ n ∈ ns, n < b) :
    ns.foldl (addCarry b) m = fold b (m + ns.sum) := by
  induction ns generalizing m with
  | nil => rw [List.foldl_nil, List.sum_nil, Nat.add_zero, fold_of_lt hm]
  | cons n ns ih =>
    have hn : n < b := h n List.mem_cons_self
    have hns : ∀ n ∈ ns, n < b := fun n hn => h n (List.mem_cons_of_mem _ hn)
    rw [List.foldl_cons, addCarry_eq hm hn, ih (fold_lt hb) hns, fold_fold_add hb, List.sum_cons,
      Nat.add_assoc]

end Fold

/-- The sum of the 16-bit words of the bytes, an odd last byte padded with a zero byte on the right. -/
def wordSum : List UInt8 → Nat
  | [] => 0
  | [hi] => read16 hi 0
  | hi :: lo :: data => read16 hi lo + wordSum data

/-- The 16-bit words of the bytes, an odd last byte padded with a zero byte on the right. -/
def words : List UInt8 → List Nat
  | [] => []
  | [hi] => [read16 hi 0]
  | hi :: lo :: data => read16 hi lo :: words data

/-- **The Internet checksum**: the complement of the one's-complement sum of the words. -/
def internetChecksum (data : List UInt8) : Nat := 65535 - (words data).foldl (addCarry 65536) 0

/-- **The Internet checksum's sum**: all ones over data that include their checksum. -/
def onesSum (data : List UInt8) : Nat := fold 65536 (wordSum data)

section WordSum
variable {data rest : List UInt8}

/-- The words of data of even length are not shifted by what follows. -/
theorem wordSum_append (h : data.length % 2 = 0) :
    wordSum (data ++ rest) = wordSum data + wordSum rest := by
  fun_induction wordSum data with
  | case1 => rw [List.nil_append, Nat.zero_add]
  | case2 hi => cases h
  | case3 hi lo data ih =>
    rw [List.length_cons, List.length_cons] at h
    rw [List.cons_append, List.cons_append, wordSum, ih (by omega), Nat.add_assoc]

theorem wordSum_le (data : List UInt8) : wordSum data ≤ 65535 * ((data.length + 1) / 2) := by
  fun_induction wordSum data with
  | case1 => exact Nat.zero_le _
  | case2 hi =>
    have h := read16_lt hi 0
    rw [List.length_singleton]
    omega
  | case3 hi lo data ih =>
    have h := read16_lt hi lo
    rw [List.length_cons, List.length_cons]
    omega

theorem wordSum_bytes16 {n : Nat} (h : n < 65536) : wordSum (bytes16 n) = n := by
  rw [bytes16, wordSum, wordSum, read16_bytes16 h, Nat.add_zero]

theorem sum_words (data : List UInt8) : (words data).sum = wordSum data := by
  fun_induction wordSum data with
  | case1 => rfl
  | case2 hi => rw [words, List.sum_singleton]
  | case3 hi lo data ih => rw [words, List.sum_cons, ih]

theorem words_lt : ∀ n ∈ words data, n < 65536 := by
  fun_induction words data with
  | case1 => exact fun n hn => absurd hn List.not_mem_nil
  | case2 hi =>
    intro n hn
    rw [List.mem_singleton.mp hn]
    exact read16_lt hi 0
  | case3 hi lo data ih =>
    intro n hn
    rcases List.mem_cons.mp hn with rfl | hn
    · exact read16_lt hi lo
    · exact ih n hn

/-- The checksum is the complement of what the sum of the words folds to. -/
theorem internetChecksum_eq (data : List UInt8) :
    internetChecksum data = 65535 - fold 65536 (wordSum data) := by
  rw [internetChecksum, foldl_addCarry (by decide) (by decide) words_lt, Nat.zero_add, sum_words]

end WordSum
end OnesComplement
