import Mathlib

/-!
# Reading a byte buffer through a cursor

A reader over `std::io::Cursor<Vec<u8>>` that sets the cursor's position and
then calls `read_exact` gets the `n` bytes at that position, or the error
`UnexpectedEof` when fewer are left.  `readExact buf pos n` is that read,
with `none` for the error; a big-endian `u32` is four such bytes.

The lemmas read a buffer laid out as `pre ++ chunk ++ rest` at the end of
`pre`, which is how a reader of a format finds what its writer put there.

`sliceRange v start stop` is `&v[start..stop]`, with `none` where Rust
panics, and `decodeUtf8` is `String::from_utf8`, with `none` for its error;
`decodeUtf8` reads back what `utf8Bytes` writes.
-/

namespace EdgeRuntime.Verified

variable {α : Type*}

/-- `read_exact` of `n` bytes from a cursor at `pos`. -/
def readExact (buf : List α) (pos n : Nat) : Option (List α) :=
  if pos + n ≤ buf.length then some ((buf.drop pos).take n) else none

theorem readExact_append (pre chunk rest : List α) :
    readExact (pre ++ chunk ++ rest) pre.length chunk.length = some chunk := by
  have hlen : pre.length + chunk.length ≤ (pre ++ chunk ++ rest).length := by
    simp only [List.length_append]
    omega
  rw [readExact, if_pos hlen, List.append_assoc, List.drop_left, List.take_left]

/-- The bytes of a `u32` in big-endian order (`u32::to_be_bytes`). -/
def be32 (n : Nat) : List UInt8 :=
  [UInt8.ofNat (n / 2 ^ 24), UInt8.ofNat (n / 2 ^ 16), UInt8.ofNat (n / 2 ^ 8), UInt8.ofNat n]

/-- `u32::from_be_bytes` of four bytes. -/
def ofBe32 : List UInt8 → Nat
  | [a, b, c, d] => a.toNat * 2 ^ 24 + b.toNat * 2 ^ 16 + c.toNat * 2 ^ 8 + d.toNat
  | _ => 0

/-- Reading a big-endian `u32` at `pos`. -/
def readU32 (buf : List UInt8) (pos : Nat) : Option Nat :=
  (readExact buf pos 4).map ofBe32

@[simp] theorem length_be32 (n : Nat) : (be32 n).length = 4 := rfl

theorem ofBe32_be32 {n : Nat} (h : n < 2 ^ 32) : ofBe32 (be32 n) = n := by
  simp only [be32, ofBe32, UInt8.toNat_ofNat']
  omega

theorem readU32_append {n : Nat} (pre rest : List UInt8) (h : n < 2 ^ 32) :
    readU32 (pre ++ be32 n ++ rest) pre.length = some n := by
  rw [readU32, ← length_be32 n, readExact_append, Option.map_some, ofBe32_be32 h]

/-- `&v[start..stop]`, or `none` where it panics: a range that ends before
it starts or past the end of `v`. -/
def sliceRange (v : List α) (start stop : Nat) : Option (List α) :=
  if start ≤ stop ∧ stop ≤ v.length then some ((v.drop start).take (stop - start)) else none

theorem sliceRange_add {v : List α} {start n : Nat} (h : start + n ≤ v.length) :
    sliceRange v start (start + n) = some ((v.drop start).take n) := by
  rw [sliceRange, if_pos ⟨Nat.le_add_right start n, h⟩, Nat.add_sub_cancel_left]

/-! ## UTF-8 -/

/-- `String::from_utf8`: the string the bytes encode, if they are UTF-8. -/
def decodeUtf8 (bytes : List UInt8) : Option String := String.fromUTF8? ⟨bytes.toArray⟩

/-- `String::as_bytes`: the UTF-8 encoding of a string. -/
def utf8Bytes (s : String) : List UInt8 := s.toUTF8.data.toList

theorem decodeUtf8_utf8Bytes (s : String) : decodeUtf8 (utf8Bytes s) = some s := by
  unfold decodeUtf8 utf8Bytes String.fromUTF8?
  simp only [Array.toArray_toList]
  rw [dif_pos (by simpa using s.isValidUTF8)]
  rfl

end EdgeRuntime.Verified
