import SuperEthd.Codec

/-! # Stream compressors

`accl::StreamCompressor` is an interface to a third-party library.  A stream keeps a
history of what went through it since the last reset; the library is a parameter, and what
is relied on is stated as properties of it. -/
namespace SuperEthd

/-- What a call of `compress` or `decompress` gives: the `int` returned, the bytes written to
the start of the output buffer, and the history of the stream after it. -/
structure StreamResult (H : Type) where
  result : Int
  output : List UInt8
  history : H

/-- A compressor and decompressor over streams with histories in `H`.  `reset` is the history
after `resetCompressionStream` and `resetDecompressionStream`; the last argument of the two
calls is `max_output_size`. -/
structure StreamCompressor (H : Type) where
  reset : H
  compress : H → List UInt8 → Nat → StreamResult H
  decompress : H → List UInt8 → Nat → StreamResult H

namespace StreamCompressor
variable {H : Type} (C : StreamCompressor H)

/-- On inputs of at most `m` bytes and with `n` bytes of output, `compress` stays within the output
and gives the length of what it wrote, or 0 for a failure that leaves the history as it was.
A library that never fails there meets this by the second case. -/
structure CompressBounded (m n : Nat) : Prop where
  output_le : ∀ h x, x.length ≤ m → (C.compress h x n).output.length ≤ n
  result_eq : ∀ h x, x.length ≤ m →
    (C.compress h x n).result = 0 ∧ (C.compress h x n).history = h ∨
      0 < (C.compress h x n).result ∧
        (C.compress h x n).result = (C.compress h x n).output.length

/-- With `n` bytes of output, `decompress` gives a negative number or a length within the output
size, and stays within the output. -/
structure DecompressBounded (n : Nat) : Prop where
  output_le : ∀ h y, (C.decompress h y n).output.length ≤ n
  result_le : ∀ h y, (C.decompress h y n).result ≤ n

/-- Moreover, `decompress` under an equal history undoes `compress`, and the histories stay
equal. -/
structure Lossless (m n : Nat) : Prop extends C.CompressBounded m n where
  decompress_compress : ∀ h x, x.length ≤ m → 0 < (C.compress h x n).result →
    C.decompress h (C.compress h x n).output n = ⟨x.length, x, (C.compress h x n).history⟩

/-- LZ4 on inputs of fewer than 13 bytes, in which it looks for no match: a token byte with their
number, then the bytes.  Other inputs are refused.  The history is the list of blocks. -/
def literals : StreamCompressor (List (List UInt8)) where
  reset := []
  compress h x n :=
    if x.length < 13 ∧ x.length < n then
      ⟨x.length + 1, UInt8.ofNat (16 * x.length) :: x, h ++ [x]⟩
    else ⟨0, [], h⟩
  decompress h y n :=
    match y with
    | [] => ⟨-1, [], h⟩
    | token :: x =>
      if token.toNat = 16 * x.length ∧ x.length ≤ n then ⟨x.length, x, h ++ [x]⟩ else ⟨-1, [], h⟩

theorem literals_lossless (m n : Nat) : literals.Lossless m n where
  output_le h x _ := by
    simp only [literals]
    split
    · simp only [List.length_cons]
      omega
    · exact Nat.zero_le n
  result_eq h x _ := by
    simp only [literals]
    split
    · right
      simp only [List.length_cons]
      omega
    · exact Or.inl ⟨rfl, rfl⟩
  decompress_compress h x _ := by
    simp only [literals]
    split
    · intro _
      exact if_pos ⟨by rw [UInt8.toNat_ofNat']; omega, by omega⟩
    · intro h0
      exact absurd h0 (Int.lt_irrefl 0)

theorem literals_decompressBounded (n : Nat) : literals.DecompressBounded n where
  output_le h y := by
    simp only [literals]
    split
    · exact Nat.zero_le n
    · split
      · rename_i hle
        exact hle.2
      · exact Nat.zero_le n
  result_le h y := by
    simp only [literals]
    split
    · simp only
      omega
    · split
      · rename_i hle
        exact Int.ofNat_le.mpr hle.2
      · simp only
        omega

end StreamCompressor

/-- The two libraries a codec is linked with.  One type holds the histories of both. -/
structure Compressors (H : Type) where
  lz4 : StreamCompressor H
  zstd : StreamCompressor H

/-- A compressor object: its class and the history of its compression stream. -/
structure CompressionStream (H : Type) where
  lib : StreamCompressor H
  history : H

namespace CompressionStream
variable {H : Type}

/-- A new object. -/
def new (lib : StreamCompressor H) : CompressionStream H := ⟨lib, lib.reset⟩

/-- `resetCompressionStream`. -/
def resetCompressionStream (stream : CompressionStream H) : CompressionStream H :=
  { stream with history := stream.lib.reset }

end CompressionStream
end SuperEthd
