import EdgeRuntime.Verified.Parser
import EdgeRuntime.Eszip.DataSection

/-!
# The header of an eszip V2 archive

`parse_v2_header` (crates/sb_graph/eszip_parse.rs) checks the magic of an
archive, reads its options and its header section, and then walks the
header's content with an offset `read`, one entry a turn, while `read` is
below the content's length.  An entry is a `u32` big-endian length and the
UTF-8 specifier, an entry-kind byte, and then

* kind `0`, a module: four `u32` fields (source offset and length, source
  map offset and length) and a module-kind byte `0..=3`;
* kind `1`, a redirect: a `u32` length and the UTF-8 target;
* kind `2`, when the magic supports npm: a `u32` package id.

Every field goes through the `read!` macro, which returns
`InvalidV2Header(what)` when the content ends before the field and slices the
field out otherwise.  Modules and redirects go into a `LinkedHashMap` in the
order they are read, npm entries into a `HashMap` that is handed to
`read_npm_section`.

The reads are modelled over the header's content with the offset as the
state (`Verified.Parsing.Cursor`); the slicing of `read!`, the
`try_into().unwrap()` of a `u32` field and the `[0]` of a byte field are kept,
each with the panic it raises, so that the theorem that none of them panics
says something.  Reading the magic, the options and the section itself, and
the checksum of the section, are `eszip`'s `Section` reads and are not
modelled: the header is given by its content.

## Main results

* `headerLoop_headerBytes`: the loop reads back, entry by entry, the content
  `headerBytes` writes for a list of entries.
* `parseV2Header_roundTrip`: on the encoding of a table with distinct
  specifiers, `parse_v2_header` returns the modules and redirects in order
  with the slots the encoding gives, and hands exactly the npm entries on;
  and on every input it returns `Ok` or `Err`, never a panic.
-/

namespace EdgeRuntime.Eszip

open EdgeRuntime.Verified EdgeRuntime.Verified.Parsing

/-- `eszip::ModuleKind`. -/
inductive ModuleKind
  | javaScript
  | json
  | jsonc
  | opaqueData
  deriving DecidableEq, Repr

/-- `EszipV2Module`, without the wakers of its slots. -/
inductive EszipV2Module
  | module (kind : ModuleKind) (source sourceMap : SourceSlot)
  | redirect (target : String)
  deriving DecidableEq, Repr

/-- The module as the data section sees it, without its kind. -/
def EszipV2Module.toV2Module : EszipV2Module → V2Module
  | .module _ source sourceMap => .module source sourceMap
  | .redirect target => .redirect target

/-- The `eszip::ParseError`s of `parse_v2_header` past its reads of the
options and the header section. -/
inductive HeaderError
  | invalidV2
  | invalidV2Header (what : String)
  | invalidV2Specifier (read : Nat)
  | invalidV2ModuleKind (kind : UInt8) (read : Nat)
  | invalidV2EntryKind (kind : UInt8) (read : Nat)
  deriving DecidableEq, Repr

/-- `EszipV2Modules`: the `LinkedHashMap` of modules and redirects. -/
abbrev EszipV2Modules := AList fun _ : String => EszipV2Module

/-- `npm_specifiers`: the `HashMap` from specifiers to npm package indices. -/
abbrev NpmSpecifiers := AList fun _ : String => Nat

/-- The two maps the header loop fills. -/
structure HeaderState where
  modules : EszipV2Modules
  npmSpecifiers : NpmSpecifiers

/-- A read of the header content, with `read` as the state. -/
abbrev HeaderReader := Cursor (Failure HeaderError)

/-! ## The reads -/

section Reads

variable (content : List UInt8)

/-- The `read!` macro: the next `n` bytes of the header content, or
`InvalidV2Header(what)` when the content ends before them. -/
def readBytes (n : Nat) (what : String) : HeaderReader (List UInt8) := do
  let read ← get
  if read + n > content.length then
    throw (.err (.invalidV2Header what))
  let start := read
  set (read + n)
  match sliceRange content start (read + n) with
  | some bytes => pure bytes
  | none => throw (.panic "slice index out of range")

/-- `u32::from_be_bytes(read!(4, what).try_into().unwrap())`. -/
def readU32Field (what : String) : HeaderReader Nat := do
  let bytes ← readBytes content 4 what
  match bytes with
  | [a, b, c, d] => pure (ofBe32 [a, b, c, d])
  | _ => throw (.panic "called `Result::unwrap()` on an `Err` value")

/-- `read!(1, what)[0]`. -/
def readByte (what : String) : HeaderReader UInt8 := do
  let bytes ← readBytes content 1 what
  match bytes with
  | b :: _ => pure b
  | [] => throw (.panic "index out of bounds: the len is 0 but the index is 0")

/-- A `u32` length read as `lenWhat`, then that many bytes read as `what`
and decoded by `String::from_utf8`, whose error becomes
`InvalidV2Specifier(read)`: the specifier of an entry and the target of a
redirect. -/
def readString (lenWhat what : String) : HeaderReader String := do
  let len ← readU32Field content lenWhat
  let bytes ← readBytes content len what
  match decodeUtf8 bytes with
  | some s => pure s
  | none => do
      let read ← get
      throw (.err (.invalidV2Specifier read))

/-- The module-kind byte of a module entry. -/
def readModuleKind : HeaderReader ModuleKind := do
  let n ← readByte content "module kind"
  match n with
  | 0 => pure .javaScript
  | 1 => pure .json
  | 2 => pure .jsonc
  | 3 => pure .opaqueData
  | n => do
      let read ← get
      throw (.err (.invalidV2ModuleKind n read))

/-- One turn of the header loop: one entry read and put into its map.  An
npm entry is accepted only when the magic supports npm. -/
def parseEntry (supportsNpm : Bool) (st : HeaderState) : HeaderReader HeaderState := do
  let specifier ← readString content "specifier len" "specifier"
  let entryKind ← readByte content "entry kind"
  match entryKind, supportsNpm with
  | 0, _ => do
      let sourceOffset ← readU32Field content "source offset"
      let sourceLen ← readU32Field content "source len"
      let sourceMapOffset ← readU32Field content "source map offset"
      let sourceMapLen ← readU32Field content "source map len"
      let kind ← readModuleKind content
      let module : EszipV2Module :=
        .module kind (parseSlot sourceOffset sourceLen) (parseSlot sourceMapOffset sourceMapLen)
      pure { st with modules := insertBack specifier module st.modules }
  | 1, _ => do
      let target ← readString content "target len" "target"
      pure { st with modules := insertBack specifier (.redirect target) st.modules }
  | 2, true => do
      let pkgId ← readU32Field content "npm package id"
      pure { st with npmSpecifiers := st.npmSpecifiers.insert specifier pkgId }
  | n, _ => do
      let read ← get
      throw (.err (.invalidV2EntryKind n read))

end Reads

/-- A failure that is a panic. -/
def Failure.IsPanic {ε : Type} : Failure ε → Prop
  | .err _ => False
  | .panic _ => True

/-! ## What each read does -/

section ReadSpecs

variable {content : List UInt8}

/-- `read!` returns the bytes its check guarantees are there: the slice
never panics. -/
theorem readBytes_run (n : Nat) (what : String) (read : Nat) :
    (readBytes content n what).run read =
      if read + n > content.length then .error (.err (.invalidV2Header what))
      else .ok ((content.drop read).take n, read + n) := by
  split
  · rename_i hgt
    simp only [readBytes, StateT.run_bind, StateT.run_get, pure_bind, hgt, if_true,
      StateT.run_throw]
    rfl
  · rename_i hle
    simp only [readBytes, StateT.run_bind, StateT.run_get, pure_bind, hle, if_false,
      sliceRange_add (Nat.le_of_not_gt hle), StateT.run_set]
    rfl

theorem readBytes_ok {n : Nat} {what : String} {read read' : Nat} {bytes : List UInt8}
    (h : (readBytes content n what).run read = .ok (bytes, read')) :
    bytes.length = n ∧ read' = read + n := by
  rw [readBytes_run] at h
  split at h
  · cases h
  · rename_i hle
    cases h
    exact ⟨List.length_take_of_le (by rw [List.length_drop]; omega), rfl⟩

/-- On a content whose rest starts with `l`, `read!` of `l`'s length
returns `l`. -/
theorem readBytes_rest {read : Nat} {l rest : List UInt8} (what : String)
    (h : Rest content read (l ++ rest)) :
    (readBytes content l.length what).run read = .ok (l, read + l.length) ∧
      Rest content (read + l.length) rest := by
  refine ⟨?_, h.append⟩
  rw [readBytes_run, if_neg (Nat.not_lt.2 h.add_length_le), h.take]

theorem readU32Field_rest {read n : Nat} {rest : List UInt8} (what : String)
    (h : Rest content read (be32 n ++ rest)) (hn : n < 2 ^ 32) :
    (readU32Field content what).run read = .ok (n, read + 4) ∧ Rest content (read + 4) rest := by
  have hbytes : (readBytes content 4 what).run read = .ok (be32 n, read + 4) :=
    (readBytes_rest what h).1
  refine ⟨?_, h.append⟩
  rw [readU32Field, run_bind_of_ok hbytes]
  show Except.ok (ofBe32 (be32 n), read + 4) = _
  rw [ofBe32_be32 hn]

theorem readByte_rest {read : Nat} {b : UInt8} {rest : List UInt8} (what : String)
    (h : Rest content read (b :: rest)) :
    (readByte content what).run read = .ok (b, read + 1) ∧ Rest content (read + 1) rest := by
  have h' : Rest content read ([b] ++ rest) := h
  have hbytes : (readBytes content 1 what).run read = .ok ([b], read + 1) :=
    (readBytes_rest what h').1
  refine ⟨?_, h'.append⟩
  rw [readByte, run_bind_of_ok hbytes]
  rfl

/-- A string as the writer puts it into the header: its UTF-8 length as a
big-endian `u32`, then its UTF-8 bytes. -/
def stringBytes (s : String) : List UInt8 := be32 (utf8Bytes s).length ++ utf8Bytes s

theorem readString_rest {read : Nat} {s : String} {rest : List UInt8} (lenWhat what : String)
    (h : Rest content read (stringBytes s ++ rest)) (hs : (utf8Bytes s).length < 2 ^ 32) :
    (readString content lenWhat what).run read = .ok (s, read + 4 + (utf8Bytes s).length) ∧
      Rest content (read + 4 + (utf8Bytes s).length) rest := by
  rw [stringBytes, List.append_assoc] at h
  obtain ⟨hlen, h₁⟩ := readU32Field_rest lenWhat h hs
  obtain ⟨hbytes, h₂⟩ := readBytes_rest what h₁
  refine ⟨?_, h₂⟩
  rw [readString, run_bind_of_ok hlen, run_bind_of_ok hbytes, decodeUtf8_utf8Bytes]
  rfl

/-- The byte the writer puts for a module kind. -/
def ModuleKind.toByte : ModuleKind → UInt8
  | .javaScript => 0
  | .json => 1
  | .jsonc => 2
  | .opaqueData => 3

theorem readModuleKind_rest {read : Nat} {k : ModuleKind} {rest : List UInt8}
    (h : Rest content read (k.toByte :: rest)) :
    (readModuleKind content).run read = .ok (k, read + 1) ∧ Rest content (read + 1) rest := by
  obtain ⟨hbyte, h₁⟩ := readByte_rest "module kind" h
  refine ⟨?_, h₁⟩
  rw [readModuleKind, run_bind_of_ok hbyte]
  cases k <;> rfl

end ReadSpecs

/-! ## The loop ends

Every entry starts with a four-byte length, so every turn moves `read`
forward, and the loop runs while `read` is below the content's length. -/

section Progress

variable (content : List UInt8)

theorem readBytes_advances (n : Nat) (what : String) : Advances (readBytes content n what) :=
  fun _ _ _ h => (readBytes_ok h).2 ▸ Nat.le_add_right _ _

theorem readBytes_progresses {n : Nat} (hn : 0 < n) (what : String) :
    Progresses (readBytes content n what) :=
  fun _ _ _ h => (readBytes_ok h).2 ▸ Nat.lt_add_of_pos_right hn

theorem readU32Field_progresses (what : String) : Progresses (readU32Field content what) := by
  apply Progresses.bind (readBytes_progresses content (by decide) what)
  intro bytes
  split
  · exact advances_pure _
  · exact advances_throw _

theorem readByte_advances (what : String) : Advances (readByte content what) := by
  apply Advances.bind (readBytes_advances content 1 what)
  intro bytes
  split
  · exact advances_pure _
  · exact advances_throw _

theorem readString_progresses (lenWhat what : String) :
    Progresses (readString content lenWhat what) := by
  apply Progresses.bind (readU32Field_progresses content lenWhat)
  intro len
  apply Advances.bind (readBytes_advances content len what)
  intro bytes
  split
  · exact advances_pure _
  · exact Advances.bind advances_get fun _ => advances_throw _

theorem readU32Field_advances (what : String) : Advances (readU32Field content what) :=
  (readU32Field_progresses content what).advances

theorem readModuleKind_advances : Advances (readModuleKind content) := by
  apply Advances.bind (readByte_advances content "module kind")
  intro n
  split
  · exact advances_pure _
  · exact advances_pure _
  · exact advances_pure _
  · exact advances_pure _
  · exact Advances.bind advances_get fun _ => advances_throw _

theorem parseEntry_progresses (supportsNpm : Bool) (st : HeaderState) :
    Progresses (parseEntry content supportsNpm st) := by
  apply Progresses.bind (readString_progresses content "specifier len" "specifier")
  intro specifier
  apply Advances.bind (readByte_advances content "entry kind")
  intro entryKind
  split
  · -- a module: four fields and the kind
    refine Advances.bind (readU32Field_advances content _) fun _ => ?_
    refine Advances.bind (readU32Field_advances content _) fun _ => ?_
    refine Advances.bind (readU32Field_advances content _) fun _ => ?_
    refine Advances.bind (readU32Field_advances content _) fun _ => ?_
    exact Advances.bind (readModuleKind_advances content) fun _ => advances_pure _
  · exact Advances.bind (readString_progresses content _ _).advances fun _ => advances_pure _
  · exact Advances.bind (readU32Field_advances content _) fun _ => advances_pure _
  · exact Advances.bind advances_get fun _ => advances_throw _

end Progress

/-- `while read < header.content_len() { .. }`: entries read one a turn
from `read` on, until the content is used up or a read fails. -/
def headerLoop (content : List UInt8) (supportsNpm : Bool) : HeaderState → HeaderReader HeaderState :=
  whileLt content.length (parseEntry content supportsNpm) (parseEntry_progresses content supportsNpm)

theorem headerLoop_run (content : List UInt8) (supportsNpm : Bool) (st : HeaderState) (read : Nat) :
    (headerLoop content supportsNpm st).run read =
      whileLt content.length (parseEntry content supportsNpm)
        (parseEntry_progresses content supportsNpm) st read :=
  rfl

/-! ## No read panics

Every read checks its bounds before it slices, so the slice, the conversion
of four bytes to a `u32` and the first byte of a one-byte field never fail:
each read fails only with an `Err`. -/

section NoPanic

variable (content : List UInt8)

theorem not_isPanic_err {ε : Type} (e : ε) : ¬ (Failure.err e).IsPanic := id

theorem readBytes_avoids (n : Nat) (what : String) :
    Avoids Failure.IsPanic (readBytes content n what) := by
  intro read e h
  rw [readBytes_run] at h
  split at h
  · cases h
    exact not_isPanic_err _
  · cases h

theorem readU32Field_avoids (what : String) : Avoids Failure.IsPanic (readU32Field content what) := by
  apply Avoids.bind_of (readBytes_avoids content 4 what) fun bytes => bytes.length = 4
  · intro read bytes read' h
    exact (readBytes_ok h).1
  · intro bytes hlen
    obtain ⟨a, b, c, d, rfl⟩ := List.length_eq_four.1 hlen
    exact avoids_pure _

theorem readByte_avoids (what : String) : Avoids Failure.IsPanic (readByte content what) := by
  apply Avoids.bind_of (readBytes_avoids content 1 what) fun bytes => bytes.length = 1
  · intro read bytes read' h
    exact (readBytes_ok h).1
  · intro bytes hlen
    obtain ⟨b, rfl⟩ := List.length_eq_one_iff.1 hlen
    exact avoids_pure _

theorem readString_avoids (lenWhat what : String) :
    Avoids Failure.IsPanic (readString content lenWhat what) := by
  apply Avoids.bind (readU32Field_avoids content lenWhat)
  intro len
  apply Avoids.bind (readBytes_avoids content len what)
  intro bytes
  split
  · exact avoids_pure _
  · exact Avoids.bind avoids_get fun _ => avoids_throw (not_isPanic_err _)

theorem readModuleKind_avoids : Avoids Failure.IsPanic (readModuleKind content) := by
  apply Avoids.bind (readByte_avoids content "module kind")
  intro n
  split
  · exact avoids_pure _
  · exact avoids_pure _
  · exact avoids_pure _
  · exact avoids_pure _
  · exact Avoids.bind avoids_get fun _ => avoids_throw (not_isPanic_err _)

theorem parseEntry_avoids (supportsNpm : Bool) (st : HeaderState) :
    Avoids Failure.IsPanic (parseEntry content supportsNpm st) := by
  apply Avoids.bind (readString_avoids content "specifier len" "specifier")
  intro specifier
  apply Avoids.bind (readByte_avoids content "entry kind")
  intro entryKind
  split
  · refine Avoids.bind (readU32Field_avoids content _) fun _ => ?_
    refine Avoids.bind (readU32Field_avoids content _) fun _ => ?_
    refine Avoids.bind (readU32Field_avoids content _) fun _ => ?_
    refine Avoids.bind (readU32Field_avoids content _) fun _ => ?_
    exact Avoids.bind (readModuleKind_avoids content) fun _ => avoids_pure _
  · exact Avoids.bind (readString_avoids content _ _) fun _ => avoids_pure _
  · exact Avoids.bind (readU32Field_avoids content _) fun _ => avoids_pure _
  · exact Avoids.bind avoids_get fun _ => avoids_throw (not_isPanic_err _)

/-- The header loop, from any state and offset, fails only with an `Err`. -/
theorem headerLoop_avoids (supportsNpm : Bool) (st : HeaderState) (read : Nat) (e : Failure HeaderError)
    (h : (headerLoop content supportsNpm st).run read = .error e) : ¬ e.IsPanic := by
  rw [headerLoop_run] at h
  exact whileLt_avoids (parseEntry_avoids content supportsNpm) st read e h

end NoPanic

/-! ## The magic and the whole header -/

/-- `ESZIP_V2_MAGIC`, `b"ESZIP_V2"`: an archive without npm entries. -/
def eszipV2Magic : List UInt8 := [0x45, 0x53, 0x5A, 0x49, 0x50, 0x5F, 0x56, 0x32]

/-- `eszip`'s `ESZIP_V2_1_MAGIC`, `b"ESZIP2.1"`. -/
def eszipV21Magic : List UInt8 := [0x45, 0x53, 0x5A, 0x49, 0x50, 0x32, 0x2E, 0x31]

/-- `ESZIP_V2_2_MAGIC`, `b"ESZIP2.2"`: an archive with options. -/
def eszipV22Magic : List UInt8 := [0x45, 0x53, 0x5A, 0x49, 0x50, 0x32, 0x2E, 0x32]

/-- `EszipV2::has_magic`. -/
def hasMagic (magic : List UInt8) : Bool :=
  decide (magic = eszipV2Magic) || decide (magic = eszipV21Magic) || decide (magic = eszipV22Magic)

/-- `parse_v2_header` on an archive with the given magic and header content:
the modules and redirects, and the npm entries when the magic supports npm,
which are what `read_npm_section` is given. -/
def parseV2Header (magic content : List UInt8) :
    Except (Failure HeaderError) (EszipV2Modules × Option NpmSpecifiers) :=
  if !hasMagic magic then .error (.err .invalidV2)
  else
    let supportsNpm := decide (magic ≠ eszipV2Magic)
    match (headerLoop content supportsNpm ⟨∅, ∅⟩).run 0 with
    | .error e => .error e
    | .ok (st, _) => .ok (st.modules, if supportsNpm then some st.npmSpecifiers else none)

theorem parseV2Header_ne_panic (magic content : List UInt8) (message : String) :
    parseV2Header magic content ≠ .error (.panic message) := by
  intro h
  unfold parseV2Header at h
  split at h
  · cases h
  · dsimp only at h
    split at h
    · rename_i e hloop
      cases h
      exact headerLoop_avoids content _ _ 0 _ hloop trivial
    · cases h

/-! ## The encoding -/

/-- An entry of the header table, as the eszip writer serializes it. -/
inductive HeaderEntry
  | module (specifier : String) (kind : ModuleKind)
      (sourceOffset sourceLen sourceMapOffset sourceMapLen : Nat)
  | redirect (specifier target : String)
  | npm (specifier : String) (pkgId : Nat)
  deriving DecidableEq, Repr

namespace HeaderEntry

def specifier : HeaderEntry → String
  | .module s _ _ _ _ _ => s
  | .redirect s _ => s
  | .npm s _ => s

def isNpm : HeaderEntry → Bool
  | .npm _ _ => true
  | _ => false

/-- The bytes of the entry in the header. -/
def bytes : HeaderEntry → List UInt8
  | .module s k so sl mo ml =>
      stringBytes s ++ [0] ++ be32 so ++ be32 sl ++ be32 mo ++ be32 ml ++ [k.toByte]
  | .redirect s t => stringBytes s ++ [1] ++ stringBytes t
  | .npm s id => stringBytes s ++ [2] ++ be32 id

/-- The numbers of the entry fit the `u32` fields that carry them. -/
def Fits : HeaderEntry → Prop
  | .module s _ so sl mo ml =>
      (utf8Bytes s).length < 2 ^ 32 ∧ so < 2 ^ 32 ∧ sl < 2 ^ 32 ∧ mo < 2 ^ 32 ∧ ml < 2 ^ 32
  | .redirect s t => (utf8Bytes s).length < 2 ^ 32 ∧ (utf8Bytes t).length < 2 ^ 32
  | .npm s id => (utf8Bytes s).length < 2 ^ 32 ∧ id < 2 ^ 32

instance : DecidablePred Fits := fun e => by
  cases e <;> unfold Fits <;> infer_instance

/-- The module or redirect the entry stands for, with the slots
`parse_v2_header` makes of its offsets and lengths. -/
def moduleEntry : HeaderEntry → Option (Sigma fun _ : String => EszipV2Module)
  | .module s k so sl mo ml => some ⟨s, .module k (parseSlot so sl) (parseSlot mo ml)⟩
  | .redirect s t => some ⟨s, .redirect t⟩
  | .npm _ _ => none

/-- The npm package index the entry stands for. -/
def npmEntry : HeaderEntry → Option (String × Nat)
  | .npm s id => some (s, id)
  | _ => none

end HeaderEntry

/-- The header content the writer emits for a table. -/
def headerBytes (es : List HeaderEntry) : List UInt8 := es.flatMap HeaderEntry.bytes

/-- What one entry of the table puts into the maps. -/
def HeaderState.add (st : HeaderState) : HeaderEntry → HeaderState
  | .module s k so sl mo ml =>
      { st with modules := insertBack s (.module k (parseSlot so sl) (parseSlot mo ml)) st.modules }
  | .redirect s t => { st with modules := insertBack s (.redirect t) st.modules }
  | .npm s id => { st with npmSpecifiers := st.npmSpecifiers.insert s id }

/-! ## Reading back what was written -/

section RoundTrip

variable {content : List UInt8}

/-- One turn of the loop on the bytes of an entry puts the entry into its
map. -/
theorem parseEntry_rest {read : Nat} {e : HeaderEntry} {rest : List UInt8} (supportsNpm : Bool)
    (st : HeaderState) (h : Rest content read (e.bytes ++ rest)) (hfits : e.Fits)
    (hnpm : e.isNpm = true → supportsNpm = true) :
    ∃ read', (parseEntry content supportsNpm st).run read = .ok (st.add e, read') ∧
      Rest content read' rest := by
  cases e with
  | module s k so sl mo ml =>
      obtain ⟨hs, hso, hsl, hmo, hml⟩ := hfits
      simp only [HeaderEntry.bytes, List.append_assoc, List.singleton_append] at h
      obtain ⟨h₁, r₁⟩ := readString_rest "specifier len" "specifier" h hs
      obtain ⟨h₂, r₂⟩ := readByte_rest "entry kind" r₁
      obtain ⟨h₃, r₃⟩ := readU32Field_rest "source offset" r₂ hso
      obtain ⟨h₄, r₄⟩ := readU32Field_rest "source len" r₃ hsl
      obtain ⟨h₅, r₅⟩ := readU32Field_rest "source map offset" r₄ hmo
      obtain ⟨h₆, r₆⟩ := readU32Field_rest "source map len" r₅ hml
      obtain ⟨h₇, r₇⟩ := readModuleKind_rest r₆
      refine ⟨_, ?_, r₇⟩
      rw [parseEntry, run_bind_of_ok h₁, run_bind_of_ok h₂]
      simp only
      rw [run_bind_of_ok h₃, run_bind_of_ok h₄, run_bind_of_ok h₅, run_bind_of_ok h₆,
        run_bind_of_ok h₇]
      rfl
  | redirect s t =>
      obtain ⟨hs, ht⟩ := hfits
      simp only [HeaderEntry.bytes, List.append_assoc, List.singleton_append] at h
      obtain ⟨h₁, r₁⟩ := readString_rest "specifier len" "specifier" h hs
      obtain ⟨h₂, r₂⟩ := readByte_rest "entry kind" r₁
      obtain ⟨h₃, r₃⟩ := readString_rest "target len" "target" r₂ ht
      refine ⟨_, ?_, r₃⟩
      rw [parseEntry, run_bind_of_ok h₁, run_bind_of_ok h₂]
      simp only
      rw [run_bind_of_ok h₃]
      rfl
  | npm s id =>
      obtain ⟨hs, hid⟩ := hfits
      have hsupports : supportsNpm = true := hnpm rfl
      subst hsupports
      simp only [HeaderEntry.bytes, List.append_assoc, List.singleton_append] at h
      obtain ⟨h₁, r₁⟩ := readString_rest "specifier len" "specifier" h hs
      obtain ⟨h₂, r₂⟩ := readByte_rest "entry kind" r₁
      obtain ⟨h₃, r₃⟩ := readU32Field_rest "npm package id" r₂ hid
      refine ⟨_, ?_, r₃⟩
      rw [parseEntry, run_bind_of_ok h₁, run_bind_of_ok h₂]
      simp only
      rw [run_bind_of_ok h₃]
      rfl

theorem bytes_ne_nil (e : HeaderEntry) (rest : List UInt8) : e.bytes ++ rest ≠ [] := by
  cases e <;> simp [HeaderEntry.bytes, stringBytes, be32]

/-- The loop reads a table back entry by entry, up to the end of the
content: by induction on the entries, one turn of the loop for each. -/
theorem headerLoop_headerBytes (supportsNpm : Bool) (es : List HeaderEntry)
    (hfits : ∀ e ∈ es, e.Fits) (hnpm : ∀ e ∈ es, e.isNpm = true → supportsNpm = true) :
    ∀ (st : HeaderState) (read : Nat), Rest content read (headerBytes es) →
      (headerLoop content supportsNpm st).run read = .ok (es.foldl HeaderState.add st, content.length) := by
  induction es with
  | nil =>
      intro st read h
      rw [headerLoop_run, whileLt_done (by rw [h.eq_length]; exact Nat.lt_irrefl _), h.eq_length]
      rfl
  | cons e es ih =>
      intro st read h
      rw [headerBytes, List.flatMap_cons] at h
      obtain ⟨read', hrun, hrest⟩ := parseEntry_rest supportsNpm st h (hfits e List.mem_cons_self)
        (hnpm e List.mem_cons_self)
      have hlt : read < content.length := h.lt_of_ne_nil (bytes_ne_nil e _)
      rw [headerLoop_run, whileLt_step hlt hrun, ← headerLoop_run, List.foldl_cons]
      exact ih (fun e he => hfits e (List.mem_cons_of_mem _ he))
        (fun e he => hnpm e (List.mem_cons_of_mem _ he)) _ _ hrest

/-- The maps after a table: its modules and redirects inserted at the back
one after another, and its npm entries collected. -/
theorem foldl_add (es : List HeaderEntry) (st : HeaderState) :
    es.foldl HeaderState.add st =
      ⟨(es.filterMap HeaderEntry.moduleEntry).foldl (fun m x => insertBack x.1 x.2 m) st.modules,
        (es.filterMap HeaderEntry.npmEntry).foldl (fun m p => m.insert p.1 p.2) st.npmSpecifiers⟩ := by
  induction es generalizing st with
  | nil => rfl
  | cons e es ih =>
      cases e <;> simp only [List.foldl_cons, ih, List.filterMap_cons, HeaderEntry.moduleEntry,
        HeaderEntry.npmEntry, HeaderState.add]

theorem sublist_moduleEntry_keys (es : List HeaderEntry) :
    ((es.filterMap HeaderEntry.moduleEntry).map Sigma.fst).Sublist (es.map HeaderEntry.specifier) := by
  induction es with
  | nil => exact List.Sublist.slnil
  | cons e es ih =>
      cases e with
      | module => exact ih.cons_cons _
      | redirect => exact ih.cons_cons _
      | npm => exact ih.cons _

/-- With distinct specifiers, the modules and redirects come out in the
order of the table. -/
theorem entries_foldl_insertBack_moduleEntry {es : List HeaderEntry}
    (hnodup : (es.map HeaderEntry.specifier).Nodup) :
    ((es.filterMap HeaderEntry.moduleEntry).foldl (fun m x => insertBack x.1 x.2 m) ∅).entries =
      es.filterMap HeaderEntry.moduleEntry := by
  rw [entries_foldl_insertBack _ _ ((sublist_moduleEntry_keys es).nodup hnodup)
    fun x _ => AList.notMem_empty x.1]
  rfl

theorem mem_filterMap_npmEntry {es : List HeaderEntry} {s : String} {id : Nat} :
    (s, id) ∈ es.filterMap HeaderEntry.npmEntry ↔ HeaderEntry.npm s id ∈ es := by
  rw [List.mem_filterMap]
  constructor
  · rintro ⟨e, he, hentry⟩
    cases e with
    | npm s' id' =>
        cases hentry
        exact he
    | module => cases hentry
    | redirect => cases hentry
  · intro h
    exact ⟨_, h, rfl⟩

/-- With distinct specifiers, the npm map holds exactly the npm entries. -/
theorem lookup_collect_npmEntry {es : List HeaderEntry} (hnodup : (es.map HeaderEntry.specifier).Nodup)
    (s : String) (id : Nat) :
    (collect (es.filterMap HeaderEntry.npmEntry)).lookup s = some id ↔ HeaderEntry.npm s id ∈ es := by
  constructor
  · intro h
    exact mem_filterMap_npmEntry.1 (mem_of_lookup_collect h)
  · intro h
    apply lookup_collect_of_unique (mem_filterMap_npmEntry.2 h)
    intro id' h'
    have heq := List.inj_on_of_nodup_map hnodup (mem_filterMap_npmEntry.1 h') h rfl
    cases heq
    rfl

end RoundTrip

/-- On the encoding of a table, `parse_v2_header` returns the maps the
table's entries fill. -/
theorem parseV2Header_headerBytes {magic : List UInt8} {es : List HeaderEntry}
    (hmagic : hasMagic magic = true) (hfits : ∀ e ∈ es, e.Fits)
    (hnpm : ∀ e ∈ es, e.isNpm = true → magic ≠ eszipV2Magic) :
    parseV2Header magic (headerBytes es) =
      .ok ((es.foldl HeaderState.add ⟨∅, ∅⟩).modules,
        if decide (magic ≠ eszipV2Magic) then some (es.foldl HeaderState.add ⟨∅, ∅⟩).npmSpecifiers
        else none) := by
  have hloop := headerLoop_headerBytes (decide (magic ≠ eszipV2Magic)) es hfits
    (fun e he hisNpm => decide_eq_true (hnpm e he hisNpm)) ⟨∅, ∅⟩ 0 (rest_zero _)
  rw [parseV2Header, if_neg (by rw [hmagic]; decide)]
  dsimp only
  rw [hloop]

theorem parseV2Header_roundTrip :
    (∀ (magic : List UInt8) (es : List HeaderEntry), hasMagic magic = true → (∀ e ∈ es, e.Fits) →
        (es.map HeaderEntry.specifier).Nodup → (∀ e ∈ es, e.isNpm = true → magic ≠ eszipV2Magic) →
        ∃ modules npm, parseV2Header magic (headerBytes es) = .ok (modules, npm) ∧
          modules.entries = es.filterMap HeaderEntry.moduleEntry ∧
          (magic = eszipV2Magic → npm = none) ∧
          (magic ≠ eszipV2Magic → ∃ m : NpmSpecifiers, npm = some m ∧
            ∀ s id, m.lookup s = some id ↔ HeaderEntry.npm s id ∈ es)) ∧
      ∀ (magic content : List UInt8) (message : String),
        parseV2Header magic content ≠ .error (.panic message) := by
  refine ⟨?_, parseV2Header_ne_panic⟩
  intro magic es hmagic hfits hnodup hnpm
  rw [parseV2Header_headerBytes hmagic hfits hnpm, foldl_add]
  refine ⟨_, _, rfl, entries_foldl_insertBack_moduleEntry hnodup, ?_, ?_⟩
  · intro hv2
    rw [if_neg (by rw [hv2]; decide)]
  · intro hv2
    exact ⟨_, if_pos (decide_eq_true hv2), lookup_collect_npmEntry hnodup⟩

/-- A module with an empty source and a source map, a redirect to it and an
npm entry, under the `ESZIP2.2` magic. -/
theorem parseV2Header_roundTrip_three :
    ∃ modules npm, parseV2Header eszipV22Magic (headerBytes
        [.module "a.ts" .javaScript 0 0 0 7, .redirect "b.ts" "a.ts", .npm "zod" 1]) =
          .ok (modules, npm) ∧
      modules.entries = [.module "a.ts" .javaScript 0 0 0 7, .redirect "b.ts" "a.ts", .npm "zod" 1].filterMap
        HeaderEntry.moduleEntry ∧
      (eszipV22Magic = eszipV2Magic → npm = none) ∧
      (eszipV22Magic ≠ eszipV2Magic → ∃ m : NpmSpecifiers, npm = some m ∧
        ∀ s id, m.lookup s = some id ↔
          HeaderEntry.npm s id ∈ [.module "a.ts" .javaScript 0 0 0 7, .redirect "b.ts" "a.ts", .npm "zod" 1]) :=
  parseV2Header_roundTrip.1 eszipV22Magic _ (by decide) (by decide) (by decide) (by decide)

end EdgeRuntime.Eszip
