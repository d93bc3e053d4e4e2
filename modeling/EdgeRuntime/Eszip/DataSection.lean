import Mathlib.Data.List.AList
import EdgeRuntime.Verified.Bytes
import EdgeRuntime.Verified.Table

/-!
# The data section of a lazily loaded eszip

`EszipDataSection` (crates/sb_graph/lib.rs) holds the bytes of an eszip's
data section behind a cursor, with the module table `parse_v2_header` built.
A module's source and source map are slots: `Pending` with the offset and
length of their section, or `Ready` with the bytes.  The data section is a
`u32` big-endian length, the sources, another length and the source maps;
each section is its bytes followed by `checksum_size` bytes of checksum.

Two ways fill the slots.

* `read_data_section_by_specifier` loads one module.  On its first call it
  records the location of every module (`locs_by_specifier`); a call for a
  module with a location marks it loaded, records the location in
  `loaded_locs_by_specifier`, reads the source at
  `initial_offset + 4 + offset` and the source map after the sources, and
  wakes the two slots with the bytes.
* `read_data_section_all` loads the rest.  It builds, for the sources and
  then for the source maps, a table from offsets to sections: a pending slot
  gives its own offset, any other module the location a lazy load recorded,
  which the lookup removes from `loaded_locs`.  Then it walks each kind of
  section from offset 0, reads a section still to be read and wakes its
  slot, and seeks past a section loaded before.

`wake_module_with_slot` panics on a slot that is not pending.  A panic is
kept as an outcome of its own (`Failure.panic`), next to the `Err` a
function returns.  The wakers of a slot, the module kind, and the positions
the shared cursor is left at are left out: each read here sets the position
before it reads.  The loads are run one after another, with no two at once
on the shared cursor; `Arc::into_inner(..).unwrap()` then holds.
-/

namespace EdgeRuntime.Eszip

open EdgeRuntime.Verified

/-! ## Modules and slots -/

/-- `EszipV2SourceSlot`, without its wakers. -/
inductive SourceSlot
  | pending (offset length : Nat)
  | ready (bytes : List UInt8)
  | taken
  deriving DecidableEq, Repr

/-- `EszipV2Module`, without the module kind. -/
inductive V2Module
  | module (source sourceMap : SourceSlot)
  | redirect (target : String)
  deriving DecidableEq, Repr

/-- The slot a wake selects: `wake_source_slot` the source,
`wake_source_map_slot` the source map. -/
inductive SlotKind
  | source
  | sourceMap
  deriving DecidableEq, Repr

namespace V2Module

/-- The selected slot; `none` where the selector panics with
"invalid module type". -/
def slot? : SlotKind → V2Module → Option SourceSlot
  | .source, .module source _ => some source
  | .sourceMap, .module _ sourceMap => some sourceMap
  | _, .redirect _ => none

/-- The module with the selected slot replaced. -/
def setSlot : SlotKind → SourceSlot → V2Module → V2Module
  | .source, s, .module _ sourceMap => .module s sourceMap
  | .sourceMap, s, .module source _ => .module source s
  | _, _, .redirect target => .redirect target

end V2Module

/-- `EszipV2Modules`: the `LinkedHashMap` from specifiers to modules, in
the order `parse_v2_header` inserted them. -/
abbrev V2Modules := AList fun _ : String => V2Module

/-- The slot `parse_v2_header` makes of the offset and length the header
gives a section: `Ready` with no bytes for `(0, 0)`, else `Pending`. -/
def parseSlot (offset length : Nat) : SourceSlot :=
  if offset = 0 ∧ length = 0 then .ready [] else .pending offset length

/-- `wake_module_with_slot`: put `new` into the selected slot of the module,
which must be pending.  The `error` is a panic's message. -/
def wakeModuleWithSlot (modules : V2Modules) (specifier : String) (kind : SlotKind)
    (new : SourceSlot) : Except String V2Modules :=
  match modules.lookup specifier with
  | none => .error "module not found"
  | some m =>
    match m.slot? kind with
    | none => .error "invalid module type"
    | some (.pending _ _) => .ok (modules.replace specifier (m.setSlot kind new))
    | some _ => .error "already populated source slot"

/-! ## Sections -/

/-- `eszip::v2::Options`: the number of checksum bytes after each section,
and the checksum `Checksum::hash` computes (no bytes for `NoChecksum`). -/
structure Options where
  checksumSize : Nat
  digest : List UInt8 → List UInt8

/-- `Section`: the bytes read, split into content and checksum. -/
structure Section where
  content : List UInt8
  checksum : List UInt8
  deriving DecidableEq, Repr

namespace Section

/-- `Section::total_len`. -/
def totalLen (s : Section) : Nat := s.content.length + s.checksum.length

/-- `Section::is_checksum_valid`. -/
def isChecksumValid (o : Options) (s : Section) : Bool := decide (o.digest s.content = s.checksum)

/-- `Section::read_with_size` from the cursor at `pos`: the content and its
checksum, or the `UnexpectedEof` of `read_exact`. -/
def readWithSize (o : Options) (buf : List UInt8) (pos length : Nat) : Option Section :=
  (readExact buf pos (length + o.checksumSize)).map fun bytes =>
    ⟨bytes.take length, bytes.drop length⟩

end Section

/-! ## The data section -/

/-- `EszipDataLoc`. -/
structure DataLoc where
  sourceOffset : Nat
  sourceLength : Nat
  sourceMapOffset : Nat
  sourceMapLength : Nat
  deriving DecidableEq, Repr

/-- The offset and length of the selected slot's section. -/
def DataLoc.range : SlotKind → DataLoc → Nat × Nat
  | .source, loc => (loc.sourceOffset, loc.sourceLength)
  | .sourceMap, loc => (loc.sourceMapOffset, loc.sourceMapLength)

/-- `EszipDataSectionMetadata`. -/
inductive Metadata
  | hasLocation (loc : DataLoc)
  | pendingOrAlreadyLoaded
  deriving DecidableEq, Repr

/-- The `eszip::ParseError`s the data section returns. -/
inductive ParseError
  /-- `ParseError::Io`: the cursor ran out of bytes. -/
  | io
  | invalidV2SourceOffset (offset : Nat)
  | invalidV2SourceHash (specifier : String)
  deriving DecidableEq, Repr

/-- The `anyhow::Error`s of `read_data_section_by_specifier`: a `bail!`, a
`ParseError` passed up by `?`, and one with a `context`. -/
inductive LoadError
  | bail (message : String)
  | parse (e : ParseError)
  | context (message : String) (e : ParseError)
  deriving DecidableEq, Repr

/-- How a call ends when it does not return `Ok`: with its `Err`, or with a
panic and its message. -/
inductive Failure (ε : Type)
  | err (e : ε)
  | panic (message : String)
  deriving DecidableEq, Repr

/-- `EszipDataSection`.  `inner` is the bytes of the cursor, which no call
changes. -/
structure EszipDataSection where
  inner : List UInt8
  modules : V2Modules
  options : Options
  initialOffset : Nat
  sourcesLen : Option Nat
  locsBySpecifier : Option (AList fun _ : String => Metadata)
  loadedLocsBySpecifier : AList fun _ : String => DataLoc

/-- The `filter_map` closure with which the first lazy load records where a
module's sections are: nothing for a redirect, and no location for a module
whose two slots are not pending. -/
def metadataOf : V2Module → Option Metadata
  | .redirect _ => none
  | .module source sourceMap =>
    let loc : DataLoc := match source with
      | .pending offset length => ⟨offset, length, 0, 0⟩
      | _ => ⟨0, 0, 0, 0⟩
    match sourceMap with
    | .pending offset length =>
        some (.hasLocation { loc with sourceMapOffset := offset, sourceMapLength := length })
    | _ =>
        if loc.sourceLength = 0 ∧ loc.sourceOffset = 0 then some .pendingOrAlreadyLoaded
        else some (.hasLocation loc)

/-- `locs_by_specifier` as the first lazy load builds it. -/
def locsOf (modules : V2Modules) : AList fun _ : String => Metadata :=
  collect (modules.entries.filterMap fun e => (metadataOf e.2).map (e.1, ·))

namespace EszipDataSection

/-- `EszipDataSection::new`: nothing loaded, nothing recorded. -/
def new (inner : List UInt8) (initialOffset : Nat) (modules : V2Modules) (options : Options) :
    EszipDataSection :=
  ⟨inner, modules, options, initialOffset, none, none, ∅⟩

/-- A scope guard of `read_data_section_by_specifier` firing: the slot it
guards becomes `Taken`, and `e` goes up. -/
def guardTaken (ds : EszipDataSection) (specifier : String) (kind : SlotKind) (e : LoadError) :
    EszipDataSection × Except (Failure LoadError) Unit :=
  match wakeModuleWithSlot ds.modules specifier kind .taken with
  | .ok modules => ({ ds with modules }, .error (.err e))
  | .error message => (ds, .error (.panic message))

/-- Reading one slot's section at `pos` and waking the slot with its
content, as `read_data_section_by_specifier` does for the source and for
the source map, under a guard that takes the slot when the read fails or the
checksum does not match. -/
def loadSlot (ds : EszipDataSection) (specifier : String) (kind : SlotKind) (pos length : Nat) :
    EszipDataSection × Except (Failure LoadError) Unit :=
  match Section.readWithSize ds.options ds.inner pos length with
  | none => ds.guardTaken specifier kind (.parse .io)
  | some s =>
    if s.isChecksumValid ds.options then
      match wakeModuleWithSlot ds.modules specifier kind (.ready s.content) with
      | .ok modules => ({ ds with modules }, .ok ())
      | .error message => (ds, .error (.panic message))
    else ds.guardTaken specifier kind (.context "invalid source hash" (.invalidV2SourceHash specifier))

/-- The source half of a lazy load: nothing to read for an empty source. -/
def loadSource (ds : EszipDataSection) (specifier : String) (loc : DataLoc) :
    EszipDataSection × Except (Failure LoadError) Unit :=
  if loc.sourceLength = 0 then (ds, .ok ())
  else ds.loadSlot specifier .source (ds.initialOffset + 4 + loc.sourceOffset) loc.sourceLength

/-- The source-map half of a lazy load.  The source maps come after the
sources, whose length is read from the cursor once and kept in
`sources_len`. -/
def loadSourceMap (ds : EszipDataSection) (specifier : String) (loc : DataLoc) :
    EszipDataSection × Except (Failure LoadError) Unit :=
  if loc.sourceMapLength = 0 then (ds, .ok ())
  else
    let cached := match ds.sourcesLen with
      | some len => some len
      | none => readU32 ds.inner ds.initialOffset
    match cached with
    | none => (ds, .error (.err (.parse .io)))
    | some sourcesLen =>
      let ds := { ds with sourcesLen := some sourcesLen }
      ds.loadSlot specifier .sourceMap (ds.initialOffset + 4 + sourcesLen + 4 + loc.sourceMapOffset)
        loc.sourceMapLength

/-- `read_data_section_by_specifier`.  The state is returned with the
result: what the call changed stays changed when it fails. -/
def readDataSectionBySpecifier (ds : EszipDataSection) (specifier : String) :
    EszipDataSection × Except (Failure LoadError) Unit :=
  let locs := ds.locsBySpecifier.getD (locsOf ds.modules)
  match locs.lookup specifier with
  | none =>
    ({ ds with locsBySpecifier := some locs },
      .error (.err (.bail "given specifier does not exist in the eszip header")))
  | some .pendingOrAlreadyLoaded => ({ ds with locsBySpecifier := some locs }, .ok ())
  | some (.hasLocation loc) =>
    let ds := { ds with
      locsBySpecifier := some (locs.replace specifier .pendingOrAlreadyLoaded)
      loadedLocsBySpecifier := ds.loadedLocsBySpecifier.insert specifier loc }
    match ds.loadSource specifier loc with
    | (ds, .error e) => (ds, .error e)
    | (ds, .ok ()) => ds.loadSourceMap specifier loc

/-- Lazy loads one after another, as the tasks `ensure_data` spawns run
when they do not overlap; `ensure_data` only logs their errors. -/
def loadEach (ds : EszipDataSection) (specifiers : List String) : EszipDataSection :=
  specifiers.foldl (fun ds specifier => (ds.readDataSectionBySpecifier specifier).1) ds

end EszipDataSection

/-! ## `read_data_section_all` -/

/-- A value of the offset tables of `read_data_section_all`: the section's
length, its module, and whether it is still to be read. -/
structure OffsetEntry where
  length : Nat
  specifier : String
  needLoad : Bool
  deriving DecidableEq, Repr

/-- The `filter_map` that builds the offset table of one kind of slot, with
the removals from `loaded_locs` it makes on the way. -/
def offsetEntries (kind : SlotKind) :
    List (Sigma fun _ : String => V2Module) → (AList fun _ : String => DataLoc) →
      List (Nat × OffsetEntry) × (AList fun _ : String => DataLoc)
  | [], loaded => ([], loaded)
  | ⟨specifier, m⟩ :: rest, loaded =>
    match m.slot? kind with
    | some (.pending offset length) =>
      ((offset, ⟨length, specifier, true⟩) :: (offsetEntries kind rest loaded).1,
        (offsetEntries kind rest loaded).2)
    | _ =>
      -- `loaded_locs.remove(specifier)`
      ((loaded.lookup specifier).toList.map
          (fun loc => ((loc.range kind).1, ⟨(loc.range kind).2, specifier, false⟩)) ++
        (offsetEntries kind rest (loaded.erase specifier)).1,
        (offsetEntries kind rest (loaded.erase specifier)).2)

set_option linter.unusedVariables false in
/-- One `while read < len` loop of `read_data_section_all` over the
sections of one kind of slot, from the offset `read` and the cursor at `pos`.
Each turn removes the section at `read` from the table; `seekPast length` is
how far the cursor is moved past a section loaded before. -/
def readSections (o : Options) (buf : List UInt8) (kind : SlotKind) (seekPast : Nat → Nat)
    (len : Nat) (table : AList fun _ : Nat => OffsetEntry) (read pos : Nat) (modules : V2Modules) :
    Except (Failure ParseError) (V2Modules × Nat) :=
  if read < len then
    match h : table.lookup read with
    | none => .error (.err (.invalidV2SourceOffset read))
    | some e =>
      if e.needLoad then
        match Section.readWithSize o buf pos e.length with
        | none => .error (.err .io)
        | some s =>
          if s.isChecksumValid o then
            match wakeModuleWithSlot modules e.specifier kind (.ready s.content) with
            | .ok modules =>
              readSections o buf kind seekPast len (table.erase read) (read + s.totalLen)
                (pos + s.totalLen) modules
            | .error message => .error (.panic message)
          else .error (.err (.invalidV2SourceHash e.specifier))
      else
        readSections o buf kind seekPast len (table.erase read) (read + e.length + o.checksumSize)
          (pos + seekPast e.length) modules
  else .ok (modules, pos)
termination_by table.keys.length
decreasing_by all_goals exact keys_length_erase_lt h

section Turns

variable {o : Options} {buf : List UInt8} {kind : SlotKind} {seekPast : Nat → Nat} {len : Nat}
  {table : AList fun _ : Nat => OffsetEntry} {read pos : Nat} {modules : V2Modules}

/-! What one turn of the loop does, one lemma per way the turn can go. -/

theorem readSections_done (h : ¬read < len) :
    readSections o buf kind seekPast len table read pos modules = .ok (modules, pos) := by
  rw [readSections, if_neg h]

theorem readSections_missing (hlt : read < len) (hlookup : table.lookup read = none) :
    readSections o buf kind seekPast len table read pos modules =
      .error (.err (.invalidV2SourceOffset read)) := by
  rw [readSections, if_pos hlt]
  split
  · rfl
  · rename_i e h
    rw [hlookup] at h
    cases h

theorem readSections_skip {length : Nat} {specifier : String} (hlt : read < len)
    (hlookup : table.lookup read = some ⟨length, specifier, false⟩) :
    readSections o buf kind seekPast len table read pos modules =
      readSections o buf kind seekPast len (table.erase read) (read + length + o.checksumSize)
        (pos + seekPast length) modules := by
  rw [readSections, if_pos hlt]
  split
  · rename_i h
    rw [hlookup] at h
    cases h
  · rename_i e h
    rw [hlookup, Option.some_inj] at h
    subst h
    rfl

theorem readSections_load {length : Nat} {specifier : String} {s : Section} {modules' : V2Modules}
    (hlt : read < len) (hlookup : table.lookup read = some ⟨length, specifier, true⟩)
    (hread : Section.readWithSize o buf pos length = some s) (hvalid : s.isChecksumValid o = true)
    (hwake : wakeModuleWithSlot modules specifier kind (.ready s.content) = .ok modules') :
    readSections o buf kind seekPast len table read pos modules =
      readSections o buf kind seekPast len (table.erase read) (read + s.totalLen) (pos + s.totalLen)
        modules' := by
  rw [readSections, if_pos hlt]
  split
  · rename_i h
    rw [hlookup] at h
    cases h
  · rename_i e h
    rw [hlookup, Option.some_inj] at h
    subst h
    simp only [if_true, hread, hvalid, hwake]

end Turns

/-- `read_data_section_all`: the modules once every slot is loaded.  The
sources loop seeks `length + 32` past a loaded section, the source-map loop
`length + checksum_size`. -/
def readDataSectionAll (ds : EszipDataSection) : Except (Failure ParseError) V2Modules :=
  match readU32 ds.inner ds.initialOffset with
  | none => .error (.err .io)
  | some sourcesLen =>
    let sources := offsetEntries .source ds.modules.entries ds.loadedLocsBySpecifier
    let sourceMaps := offsetEntries .sourceMap ds.modules.entries sources.2
    match readSections ds.options ds.inner .source (fun length => length + 32) sourcesLen
        (collect sources.1) 0 (ds.initialOffset + 4) ds.modules with
    | .error e => .error e
    | .ok (modules, pos) =>
      match readU32 ds.inner pos with
      | none => .error (.err .io)
      | some sourceMapsLen =>
        (readSections ds.options ds.inner .sourceMap (fun length => length + ds.options.checksumSize)
          sourceMapsLen (collect sourceMaps.1) 0 (pos + 4) modules).map Prod.fst

end EdgeRuntime.Eszip
