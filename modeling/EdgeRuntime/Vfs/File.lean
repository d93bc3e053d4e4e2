import Mathlib.Data.List.Basic

/-!
# Reading a file of the virtual file system

A file of an eszip's virtual file system (crates/sb_fs/virtual_fs.rs) is a
`VirtualFile`: the specifier of the eszip module that holds its bytes, and
its length.  `FileBackedVfs::open_file` wraps it in a `FileBackedVfsFile`
with a cursor starting at `0`.  `read_to_buf` advances the cursor by the
buffer's length, clamped to the file's length, and `read_to_end` moves it to
the end; both then ask `VirtualFile::read_file` for the bytes at the old
cursor.

`VirtualFile::read_file` takes the position as `_pos` and never reads it: it
copies the module's source from its start.  A read at any position returns
the file's first bytes, and a read past the end returns as many bytes as a
read at the start, so a reader that reads chunk after chunk until a read
returns no bytes never stops.

The cursor is a `u64`, and the source's arithmetic on it wraps as in a
release build: it is modelled by `UInt64`, `i64` offsets by `Int64`, and
`as` casts between them by reinterpreting the bits.

## Main results

* `readToBuf_ignores_pos`: a read returns the first bytes of the file,
  whatever the cursor, and a chunked reader of a non-empty file never sees
  the end.
* `readToEnd_new`: a whole-file read from a freshly opened file returns the
  file's bytes.
* `seek_fromEnd_ne_add`: `seek(SeekFrom::End(d))` moves the cursor to
  `len - d` in both sign branches, so for every offset other than `0` and
  `i64::MIN` it never lands on `len + d`.
-/

namespace EdgeRuntime.Vfs

/-- `std::io::ErrorKind`, the kinds the virtual file system raises. -/
inductive ErrorKind
  | notFound
  | permissionDenied
  | other
  deriving DecidableEq, Repr

/-- `std::io::Error` as the file code builds it. -/
structure IoError where
  kind : ErrorKind
  msg : String
  deriving DecidableEq, Repr

/-- The module sources of an eszip: `ensure_module(specifier)` followed by
`source()`, when both yield something. -/
abbrev EszipSources := String → Option (List UInt8)

/-- `VirtualFile`, with the fields a read uses. -/
structure VirtualFile where
  key : String
  len : UInt64
  deriving DecidableEq, Repr

/-- `VirtualFile::read_file`: the read length and the buffer afterwards. -/
def VirtualFile.readFile (f : VirtualFile) (eszip : EszipSources) (_pos : UInt64)
    (buf : List UInt8) : Except IoError (Nat × List UInt8) :=
  match eszip f.key with
  | none => .error ⟨.notFound, "No content available"⟩
  | some content =>
      .ok (min buf.length content.length,
        content.take (min buf.length content.length) ++ buf.drop (min buf.length content.length))

/-- `FileBackedVfsFile`: the file and its cursor. -/
structure VfsFile where
  file : VirtualFile
  pos : UInt64
  deriving DecidableEq, Repr

/-- `FileBackedVfs::open_file`: the cursor starts at `0`. -/
def VfsFile.openFile (f : VirtualFile) : VfsFile := ⟨f, 0⟩

/-- `std::io::SeekFrom`. -/
inductive SeekFrom
  | start (pos : UInt64)
  /-- `SeekFrom::End`. -/
  | fromEnd (offset : Int64)
  | current (offset : Int64)
  deriving DecidableEq, Repr

/-- The error both checks of `seek` raise. -/
def beforeStart : IoError :=
  ⟨.permissionDenied,
    "An attempt was made to move the file pointer before the beginning of the file."⟩

namespace VfsFile

/-- `FileBackedVfsFile::seek`: the file afterwards and the new position. -/
def seek (st : VfsFile) : SeekFrom → VfsFile × Except IoError UInt64
  | .start pos => ({ st with pos := pos }, .ok pos)
  | .fromEnd offset =>
      if offset < 0 ∧ (-offset).toUInt64 > st.file.len then (st, .error beforeStart)
      else if 0 ≤ offset then
        ({ st with pos := st.file.len - offset.toUInt64 }, .ok (st.file.len - offset.toUInt64))
      else
        ({ st with pos := st.file.len + (-offset).toUInt64 }, .ok (st.file.len + (-offset).toUInt64))
  | .current offset =>
      if 0 ≤ offset then
        ({ st with pos := st.pos + offset.toUInt64 }, .ok (st.pos + offset.toUInt64))
      else if (-offset).toUInt64 > st.pos then (st, .error beforeStart)
      else ({ st with pos := st.pos - (-offset).toUInt64 }, .ok (st.pos - (-offset).toUInt64))

/-- `FileBackedVfsFile::read_to_buf`: the cursor moves first, then the file
is read at the old cursor. -/
def readToBuf (eszip : EszipSources) (st : VfsFile) (buf : List UInt8) :
    VfsFile × Except IoError (Nat × List UInt8) :=
  ({ st with pos := min st.file.len (st.pos + UInt64.ofNat buf.length) },
    st.file.readFile eszip st.pos buf)

/-- A reader of `n`-byte chunks, as a stream over the file reads them: it
stops at the first read that returns no bytes, and gives up after `fuel`
reads. -/
def readChunks (eszip : EszipSources) (n : Nat) :
    Nat → VfsFile → List UInt8 → Option (Except IoError (List UInt8))
  | 0, _, _ => none
  | fuel + 1, st, acc =>
      match readToBuf eszip st (List.replicate n 0) with
      | (_, .error e) => some (.error e)
      | (st', .ok (k, bytes)) =>
          if k = 0 then some (.ok acc) else readChunks eszip n fuel st' (acc ++ bytes.take k)

/-! ## What a read returns -/

theorem readFile_eq {f : VirtualFile} {eszip : EszipSources} {c : List UInt8}
    (hc : eszip f.key = some c) (pos : UInt64) (buf : List UInt8) :
    f.readFile eszip pos buf =
      .ok (min buf.length c.length,
        c.take (min buf.length c.length) ++ buf.drop (min buf.length c.length)) := by
  simp [VirtualFile.readFile, hc]

/-- A chunked reader of a non-empty file never sees a read of no bytes. -/
theorem readChunks_eq_none {eszip : EszipSources} {c : List UInt8} {n : Nat}
    (hne : c ≠ []) (hn : 0 < n) :
    ∀ (fuel : Nat) (st : VfsFile) (acc : List UInt8), eszip st.file.key = some c →
      readChunks eszip n fuel st acc = none := by
  intro fuel
  induction fuel with
  | zero => intro st acc _; rfl
  | succ fuel ih =>
      intro st acc hc
      have hlen : 0 < c.length := List.length_pos_iff.2 hne
      have hk : min n c.length ≠ 0 := by omega
      have hread : readToBuf eszip st (List.replicate n 0) =
          ({ st with pos := min st.file.len (st.pos + UInt64.ofNat n) },
            .ok (min n c.length, c.take (min n c.length) ++
              (List.replicate n 0).drop (min n c.length))) := by
        simp only [readToBuf, readFile_eq hc, List.length_replicate]
      simp only [readChunks, hread, hk, if_false]
      exact ih _ _ hc

theorem readToBuf_ignores_pos (eszip : EszipSources) (st : VfsFile) (c : List UInt8) (n : Nat)
    (hc : eszip st.file.key = some c) (hne : c ≠ []) (hn : 0 < n) :
    (readToBuf eszip st (List.replicate n 0)).2 =
        .ok (min n c.length, c.take (min n c.length) ++ List.replicate (n - min n c.length) 0) ∧
      ∀ fuel acc, readChunks eszip n fuel st acc = none := by
  refine ⟨?_, fun fuel acc => readChunks_eq_none hne hn fuel st acc hc⟩
  simp only [readToBuf, readFile_eq hc, List.length_replicate, List.drop_replicate]

/-- The file `a.js` holds `ab`; after `seek(Start(1))` a one-byte read
returns `a`, where the byte at position `1` is `b`. -/
theorem readToBuf_ignores_pos_ab :
    (readToBuf (fun key => if key = "a.js" then some [97, 98] else none)
        ((VfsFile.openFile ⟨"a.js", 2⟩).seek (.start 1)).1 [0]).2 = .ok (1, [97]) ∧
      (([97, 98] : List UInt8).drop 1).take 1 = [98] ∧
      ∀ fuel acc, readChunks (fun key => if key = "a.js" then some [97, 98] else none) 1 fuel
        ((VfsFile.openFile ⟨"a.js", 2⟩).seek (.start 1)).1 acc = none := by
  have h := readToBuf_ignores_pos (fun key => if key = "a.js" then some [97, 98] else none)
    ((VfsFile.openFile ⟨"a.js", 2⟩).seek (.start 1)).1 [97, 98] 1 rfl (by decide) (by decide)
  exact ⟨h.1, rfl, h.2⟩

/-- In `u64` arithmetic `len - x` and `len + x` meet only at `x = 0` and at
`x = 2^63`. -/
theorem eq_zero_or_of_sub_eq_add {len x : UInt64} (h : len - x = len + x) :
    x = 0 ∨ x = 9223372036854775808 := by
  have hdouble : x + x = 0 := by grind
  have hx := x.toNat_lt
  rw [UInt64.ext_iff, UInt64.toNat_add] at hdouble
  rw [UInt64.ext_iff, UInt64.ext_iff]
  simp only [UInt64.toNat_zero, UInt64.reduceToNat] at hdouble ⊢
  omega

theorem toUInt64_injective {d e : Int64} (h : d.toUInt64 = e.toUInt64) : d = e := by
  cases d
  cases e
  cases h
  rfl

/-- Both sign branches of `SeekFrom::End` compute `len - offset`: the
negative one adds `-offset as u64`, which is `len - offset` in wrapping
arithmetic. -/
theorem seek_fromEnd (st : VfsFile) (d : Int64) :
    st.seek (.fromEnd d) =
      if d < 0 ∧ (-d).toUInt64 > st.file.len then (st, .error beforeStart)
      else ({ st with pos := st.file.len - d.toUInt64 }, .ok (st.file.len - d.toUInt64)) := by
  simp only [seek]
  split_ifs
  · rfl
  · rfl
  · rw [Int64.toUInt64_neg, ← UInt64.sub_eq_add_neg]

theorem seek_fromEnd_ne_add (st : VfsFile) (d : Int64) (hd : d ≠ 0)
    (hmin : d ≠ Int64.minValue) :
    (st.seek (.fromEnd d)).2 ≠ .ok (st.file.len + d.toUInt64) := by
  rw [seek_fromEnd]
  split_ifs
  · exact fun h => nomatch h
  · intro h
    rcases eq_zero_or_of_sub_eq_add (Except.ok.inj h) with h0 | hm
    · exact hd (toUInt64_injective h0)
    · exact hmin (toUInt64_injective hm)

/-- In a 10-byte file `seek(SeekFrom::End(3))` lands on `7`, not on `13`. -/
theorem seek_fromEnd_ne_add_ten :
    (VfsFile.openFile ⟨"a.js", 10⟩).seek (.fromEnd 3) = (⟨⟨"a.js", 10⟩, 7⟩, .ok 7) ∧
      ((VfsFile.openFile ⟨"a.js", 10⟩).seek (.fromEnd 3)).2 ≠ .ok 13 :=
  ⟨rfl, seek_fromEnd_ne_add (VfsFile.openFile ⟨"a.js", 10⟩) 3 (by decide) (by decide)⟩

end VfsFile

end EdgeRuntime.Vfs
