import SuperEthd.Lib.OnesComplement
import SuperEthd.NetKit

/-! # Sums over chunks

The layer-4 checksums add up pseudo-header, header and payload in separate calls.  The sum of a chunk of
even length goes on where the next chunk begins, so it makes no difference where the data are cut; and
up to 131072 bytes the 32 bits hold all of it, so that the carries can wait for the end. -/
namespace SuperEthd.NetKit
open BigEndian OnesComplement

/-! ## Byte order -/

section Memory
variable (host : ByteOrder)

@[simp] theorem memory16_length (x : UInt16) : (memory16 host x).length = 2 := by
  cases host <;> rfl

@[simp] theorem memory32_length (x : UInt32) : (memory32 host x).length = 4 := by
  cases host <;> rfl

theorem bswap16_toNat (x : UInt16) : (bswap16 x).toNat = x.toNat % 256 * 256 + x.toNat / 256 := by
  have hx := x.toNat_lt
  rw [bswap16, UInt16.toNat_ofNat', Nat.mod_eq_of_lt (by omega)]

theorem bswap16_bswap16 (x : UInt16) : bswap16 (bswap16 x) = x := by
  have hx := x.toNat_lt
  have hhigh : (x.toNat % 256 * 256 + x.toNat / 256) / 256 = x.toNat % 256 := by omega
  apply UInt16.toNat_inj.mp
  rw [bswap16_toNat, bswap16_toNat, hhigh]
  omega

/-- What is loaded and swapped is the big-endian word. -/
theorem be_to_cpu_load16 (a b : UInt8) : (be_to_cpu_16 host (load16 host a b)).toNat = read16 a b := by
  have ha := a.toNat_lt
  cases host with
  | little =>
    show (bswap16 (UInt16.ofNat (read16 b a))).toNat = read16 a b
    rw [bswap16_toNat, UInt16.toNat_ofNat', Nat.mod_eq_of_lt (read16_lt b a), read16, read16]
    omega
  | big =>
    show (UInt16.ofNat (read16 a b)).toNat = read16 a b
    rw [UInt16.toNat_ofNat', Nat.mod_eq_of_lt (read16_lt a b)]

/-- What is swapped and stored is in network order. -/
theorem memory16_cpu_to_be (x : UInt16) : memory16 host (cpu_to_be_16 host x) = bytes16 x.toNat := by
  have hx := x.toNat_lt
  cases host with
  | big => rfl
  | little =>
    show [UInt8.ofNat (bswap16 x).toNat, UInt8.ofNat ((bswap16 x).toNat / 256)] =
      [UInt8.ofNat (x.toNat / 256), UInt8.ofNat x.toNat]
    have hhigh : (x.toNat % 256 * 256 + x.toNat / 256) / 256 = x.toNat % 256 := by omega
    rw [bswap16_toNat, hhigh]
    congr 1
    · apply UInt8.toNat_inj.mp
      rw [UInt8.toNat_ofNat', UInt8.toNat_ofNat']
      omega
    · congr 1
      apply UInt8.toNat_inj.mp
      rw [UInt8.toNat_ofNat', UInt8.toNat_ofNat']
      omega

end Memory

/-! ## The code's sum -/

/-- What `compute_checksum_partial` adds. -/
def partialSum : List UInt8 → Nat
  | a :: b :: data => read16 a b + partialSum data
  | [a] => a.toNat
  | [] => 0

/-- The odd last byte, zero where there is none. -/
def oddByte : List UInt8 → UInt8
  | _ :: _ :: data => oddByte data
  | [a] => a
  | [] => 0

section Sums
variable {data payload front head tail : List UInt8}

theorem wordSum_eq (data : List UInt8) : wordSum data = partialSum data + 255 * (oddByte data).toNat := by
  fun_induction partialSum data with
  | case1 a b data ih => rw [wordSum, oddByte, ih, Nat.add_assoc]
  | case2 a =>
    rw [wordSum, oddByte, read16, UInt8.toNat_zero]
    omega
  | case3 => rfl

theorem oddByte_eq_zero_iff :
    oddByte data = 0 ↔ (data.length % 2 = 1 → data.getLast? = some 0) := by
  fun_induction oddByte data with
  | case1 a b data ih =>
    rw [ih, List.length_cons, List.length_cons]
    have hlast : data.length % 2 = 1 → (a :: b :: data).getLast? = data.getLast? := by
      intro hodd
      cases data with
      | nil => cases hodd
      | cons c data => rfl
    have hlen : (data.length + 1 + 1) % 2 = data.length % 2 := by omega
    rw [hlen]
    constructor
    · intro h hodd
      rw [hlast hodd, h hodd]
    · intro h hodd
      rw [← hlast hodd, h hodd]
  | case2 a => simp
  | case3 => simp

theorem partialSum_of_even (h : data.length % 2 = 0) : partialSum data = wordSum data := by
  have hodd : oddByte data = 0 := oddByte_eq_zero_iff.mpr fun h1 => by omega
  rw [wordSum_eq, hodd, UInt8.toNat_zero, Nat.mul_zero, Nat.add_zero]

theorem partialSum_le (data : List UInt8) : partialSum data ≤ 65535 * ((data.length + 1) / 2) := by
  have h1 := wordSum_le data
  have h2 := wordSum_eq data
  omega

/-- **The loop of the sum**, as long as 32 bits hold it. -/
theorem compute_checksum_partial_toNat (host : ByteOrder) {sum : UInt32}
    (h : sum.toNat + partialSum data < 2 ^ 32) :
    UInt32.toNat ( compute_checksum_partial host data sum) = sum.toNat + partialSum data := by
  fun_induction partialSum data generalizing sum with
  | case1 a b data ih =>
    have hadd : (sum + (be_to_cpu_16 host (load16 host a b)).toUInt32).toNat =
        sum.toNat + read16 a b := by
      rw [UInt32.toNat_add, UInt16.toNat_toUInt32, be_to_cpu_load16, Nat.mod_eq_of_lt (by omega)]
    rw [ compute_checksum_partial, ih (by rw [hadd]; omega), hadd, Nat.add_assoc]
  | case2 a => rw [ compute_checksum_partial, UInt32.toNat_add, UInt8.toNat_toUInt32, Nat.mod_eq_of_lt h]
  | case3 => rfl

/-- The body of the loop of `compute_checksum_finalize`. -/
def carryOnce (sum : UInt32) : UInt32 := (sum &&& (0xffff : UInt32)) + (sum >>> 16)

theorem shiftRight_eq_zero_iff {sum : UInt32} : sum >>> 16 = 0 ↔ sum.toNat < 65536 := by
  rw [← UInt32.toNat_inj, UInt32.toNat_shiftRight, UInt32.toNat_zero]
  show sum.toNat >>> 16 = 0 ↔ _
  rw [Nat.shiftRight_eq_div_pow]
  omega

theorem carryOnce_toNat {sum : UInt32} (h : sum >>> 16 ≠ 0) :
    (carryOnce sum).toNat = sum.toNat % 65536 + sum.toNat / 65536 := by
  obtain ⟨hlt, hlow, hhigh⟩ := carry_decreasing h
  have hsum := sum.toNat_lt
  rw [carryOnce, UInt32.toNat_add, Nat.mod_eq_of_lt (by omega), hlow, hhigh]

theorem carry_toNat (sum : UInt32) : (carry sum).toNat = fold 65536 sum.toNat := by
  fun_induction carry sum with
  | case1 sum h ih =>
    have hle : 65536 ≤ sum.toNat := Nat.le_of_not_lt fun hlt => h (shiftRight_eq_zero_iff.mpr hlt)
    rw [ih, fold_of_le (by decide) hle]
    exact congrArg (fold 65536) (carryOnce_toNat h)
  | case2 sum h => rw [fold_of_lt (shiftRight_eq_zero_iff.mp (of_not_not h))]

/-- **The end of the sum**: the complement of what the sum folds to. -/
theorem compute_checksum_finalize_toNat (sum : UInt32) :
    (compute_checksum_finalize sum).toNat = 65535 - fold 65536 sum.toNat := by
  have hlt : fold 65536 sum.toNat < 65536 := fold_lt (by decide)
  have hcarry := carry_toNat sum
  have hsize : UInt32.size = 4294967296 := rfl
  rw [compute_checksum_finalize, UInt32.toNat_toUInt16, UInt32.toNat_not, hcarry, hsize]
  omega

/-- The words of data of even length are not shifted by what follows. -/
theorem partialSum_append {rest : List UInt8} (h : data.length % 2 = 0) :
    partialSum (data ++ rest) = partialSum data + partialSum rest := by
  fun_induction partialSum data with
  | case1 a b data ih =>
    rw [List.length_cons, List.length_cons] at h
    rw [List.cons_append, List.cons_append, partialSum, ih (by omega), Nat.add_assoc]
  | case2 a => cases h
  | case3 => rw [List.nil_append, Nat.zero_add]

end Sums

/-! ## The calls for the chunks -/

section Chunks
variable (host : ByteOrder) {data rest : List UInt8} {sum : UInt32} {chunks : List (List UInt8)}

/-- The sum over the chunks, one call for each. -/
def chunkSum (chunks : List (List UInt8)) (sum : UInt32) : UInt32 :=
  chunks.foldl (fun sum chunk => compute_checksum_partial host chunk sum) sum

/-- No addition of the loop of a call overflows. -/
def NoOverflow : List UInt8 → UInt32 → Prop
  | a :: b :: data, sum =>
    sum.toNat + (be_to_cpu_16 host (load16 host a b)).toNat < 2 ^ 32 ∧
      NoOverflow data (sum + (be_to_cpu_16 host (load16 host a b)).toUInt32)
  | [a], sum => sum.toNat + a.toNat < 2 ^ 32
  | [], _ => True

/-- No addition of the calls for the chunks overflows. -/
def NoneOverflows : List (List UInt8) → UInt32 → Prop
  | chunk :: chunks, sum =>
    NoOverflow host chunk sum ∧ NoneOverflows chunks ( compute_checksum_partial host chunk sum)
  | [], _ => True

/-- The loop of `compute_checksum_finalize` ends: its body is run `n` times, and then the complement
of the sum is returned. -/
structure Finalizes (sum : UInt32) (n : Nat) : Prop where
  runs : ∀ k < n, carryOnce^[k] sum >>> 16 ≠ 0
  ends : carryOnce^[n] sum >>> 16 = 0
  returns : compute_checksum_finalize sum = (~~~(carryOnce^[n] sum)).toUInt16

/-- **It makes no difference where the data are cut** into the chunks. -/
structure ChunkingIndependent (chunks : List (List UInt8)) : Prop where
  same : compute_checksum_finalize (chunkSum host chunks 0) = compute_checksum host chunks.flatten
  exact_sum : NoneOverflows host chunks 0 ∧ NoOverflow host chunks.flatten 0
  finalizes : ∀ sum, ∃ n, Finalizes sum n
  rfc1071 : chunks.flatten.length % 2 = 0 →
    (compute_checksum_finalize (chunkSum host chunks 0)).toNat = internetChecksum chunks.flatten

/-- **A chunk of even length**: the loop goes on with the next one as if they were one. -/
theorem compute_checksum_partial_append (h : data.length % 2 = 0) :
    compute_checksum_partial host (data ++ rest) sum =
      compute_checksum_partial host rest ( compute_checksum_partial host data sum) := by
  fun_induction compute_checksum_partial host data sum with
  | case1 sum a b data ih =>
    rw [List.length_cons, List.length_cons] at h
    rw [List.cons_append, List.cons_append, compute_checksum_partial, ih (by omega)]
  | case2 sum a => cases h
  | case3 sum => rfl

/-- The first of the chunks is of even length, or the last. -/
theorem even_or_last {chunk : List UInt8} (h : ∀ c ∈ (chunk :: chunks).dropLast, c.length % 2 = 0) :
    (chunks = [] ∨ chunk.length % 2 = 0) ∧ ∀ c ∈ chunks.dropLast, c.length % 2 = 0 := by
  cases chunks with
  | nil => exact ⟨Or.inl rfl, fun c hc => absurd hc List.not_mem_nil⟩
  | cons next chunks =>
    rw [List.dropLast_cons_cons] at h
    exact ⟨Or.inr (h chunk List.mem_cons_self), fun c hc => h c (List.mem_cons_of_mem _ hc)⟩

/-- **The sum over the chunks** is the sum over the data. -/
theorem chunkSum_eq (sum : UInt32) (h : ∀ c ∈ chunks.dropLast, c.length % 2 = 0) :
    chunkSum host chunks sum = compute_checksum_partial host chunks.flatten sum := by
  induction chunks generalizing sum with
  | nil => rfl
  | cons chunk chunks ih =>
    obtain ⟨hchunk, hchunks⟩ := even_or_last h
    have hrest := ih ( compute_checksum_partial host chunk sum) hchunks
    rw [chunkSum, List.foldl_cons, List.flatten_cons]
    refine hrest.trans ?_
    rcases hchunk with rfl | heven
    · rw [List.flatten_nil, List.append_nil]
      rfl
    · exact (compute_checksum_partial_append host heven).symm

/-- No addition overflows as long as 32 bits hold the whole sum. -/
theorem noOverflow_iff : NoOverflow host data sum ↔ sum.toNat + partialSum data < 2 ^ 32 := by
  fun_induction partialSum data generalizing sum with
  | case1 a b data ih =>
    rw [NoOverflow, ih, be_to_cpu_load16]
    have hadd : sum.toNat + read16 a b < 2 ^ 32 →
        (sum + (be_to_cpu_16 host (load16 host a b)).toUInt32).toNat = sum.toNat + read16 a b := by
      intro hlt
      rw [UInt32.toNat_add, UInt16.toNat_toUInt32, be_to_cpu_load16, Nat.mod_eq_of_lt hlt]
    constructor
    · rintro ⟨hlt, hrest⟩
      rw [hadd hlt] at hrest
      omega
    · intro h
      have hlt : sum.toNat + read16 a b < 2 ^ 32 := by omega
      exact ⟨hlt, by rw [hadd hlt]; omega⟩
  | case2 a => rfl
  | case3 =>
    rw [NoOverflow, Nat.add_zero]
    exact iff_of_true True.intro sum.toNat_lt

theorem noneOverflows (h : ∀ c ∈ chunks.dropLast, c.length % 2 = 0)
    (hsum : sum.toNat + partialSum chunks.flatten < 2 ^ 32) : NoneOverflows host chunks sum := by
  induction chunks generalizing sum with
  | nil => exact True.intro
  | cons chunk chunks ih =>
    obtain ⟨hchunk, hchunks⟩ := even_or_last h
    have hflat : partialSum (chunk :: chunks).flatten = partialSum chunk + partialSum chunks.flatten := by
      rw [List.flatten_cons]
      rcases hchunk with rfl | heven
      · rw [List.flatten_nil, List.append_nil]
        rfl
      · exact partialSum_append heven
    rw [hflat] at hsum
    have hlt : sum.toNat + partialSum chunk < 2 ^ 32 := by omega
    refine ⟨(noOverflow_iff host).mpr hlt, ih hchunks ?_⟩
    rw [compute_checksum_partial_toNat host hlt]
    omega

/-- **The loop of `compute_checksum_finalize`** runs twice at most. -/
theorem exists_finalizes (sum : UInt32) : ∃ n ≤ 2, Finalizes sum n := by
  have hsum := sum.toNat_lt
  have hend : ∀ {sum : UInt32}, sum >>> 16 = 0 → carry sum = sum := by
    intro sum h
    rw [carry, if_neg (not_not.mpr h)]
  have hcarry : ∀ {sum : UInt32}, sum >>> 16 ≠ 0 → carry sum = carry (carryOnce sum) := by
    intro sum h
    rw [carry, if_pos h]
    rfl
  by_cases h0 : sum >>> 16 = 0
  · refine ⟨0, by decide, fun k hk => absurd hk (Nat.not_lt_zero k), h0, ?_⟩
    rw [compute_checksum_finalize, hend h0]
    rfl
  by_cases h1 : carryOnce sum >>> 16 = 0
  · refine ⟨1, by decide, fun k hk => ?_, h1, ?_⟩
    · obtain rfl : k = 0 := by omega
      exact h0
    · rw [compute_checksum_finalize, hcarry h0, hend h1]
      rfl
  -- a sum of 32 bits carries 16 bits, and then one
  have h2 : carryOnce (carryOnce sum) >>> 16 = 0 := by
    have hlarge := mt shiftRight_eq_zero_iff.mpr h1
    rw [shiftRight_eq_zero_iff, carryOnce_toNat h1]
    rw [carryOnce_toNat h0] at hlarge ⊢
    omega
  refine ⟨2, le_rfl, fun k hk => ?_, h2, ?_⟩
  · obtain rfl | rfl : k = 0 ∨ k = 1 := by omega
    · exact h0
    · exact h1
  · rw [compute_checksum_finalize, hcarry h0, hcarry h1, hend h2]
    rfl

/-- **Checksums of chunks**: as long as only the last chunk is of odd length, they are the checksum of
the data, of at most 131072 bytes, and for an even length the Internet checksum. -/
theorem chunkingIndependent (chunks : List (List UInt8))
    (heven : ∀ c ∈ chunks.dropLast, c.length % 2 = 0) (hlen : chunks.flatten.length ≤ 131072) :
    ChunkingIndependent host chunks := by
  have hzero : UInt32.toNat 0 = 0 := rfl
  have hle := partialSum_le chunks.flatten
  -- an odd last byte is no more than a word
  have hlt : UInt32.toNat 0 + partialSum chunks.flatten < 2 ^ 32 := by omega
  have hsame := chunkSum_eq host 0 heven
  constructor
  · rw [hsame]
    rfl
  · exact ⟨noneOverflows host heven hlt, (noOverflow_iff host).mpr hlt⟩
  · intro sum
    obtain ⟨n, -, h⟩ := exists_finalizes sum
    exact ⟨n, h⟩
  · intro htotal
    rw [hsame, compute_checksum_finalize_toNat, compute_checksum_partial_toNat host hlt, hzero,
      Nat.zero_add, partialSum_of_even htotal, internetChecksum_eq]

/-- Three chunks, of which the last one is odd. -/
theorem chunkingIndependent_odd :
    ChunkingIndependent .little [[0x45, 0x00], [0x00, 0x1c, 0xff, 0xff], [0x07]] :=
  chunkingIndependent .little _ (by decide) (by decide)

end Chunks
end SuperEthd.NetKit
