import EdgeRuntime.Eszip.Layout

/-!
# Lazy loads before `read_data_section_all`

A lazy load of a module reads its two sections where the layout puts them
and wakes its slots with their bytes (`loadSlot_table`).  Then
`read_data_section_all` builds its two offset tables from one
`loaded_locs`: the sources' table takes the module's recorded location out
of it, so the source maps' table has no entry for the module, and the
source-map loop stops at its offset with `InvalidV2SourceOffset`.

On an eszip of one module with a source and a source map, an eager
`read_data_section_all` loads both slots with their bytes, and a lazy load
of the module followed by `read_data_section_all` fails with
`InvalidV2SourceOffset(0)` (`readDataSectionAll_lazy_disagrees`), with
32-byte checksums, where the sources loop's seek past a loaded section is
right.
-/

namespace EdgeRuntime.Eszip

open EdgeRuntime.Verified

/-! ## Reading one slot -/

/-- A lazy load of a pending slot whose section reads back as the slot's
bytes wakes the slot with them. -/
theorem loadSlot_table {o : Options} {A : Archive} {ready : SlotKind → String → Bool}
    {k : String} {a : ArchiveModule} {kind : SlotKind} (hk : A.lookup k = some a)
    (hb : a.bytes kind ≠ []) (hpending : ready kind k = false) (ds : EszipDataSection) {pos : Nat}
    (hread : Section.readWithSize o ds.inner pos (a.bytes kind).length =
      some ⟨a.bytes kind, o.digest (a.bytes kind)⟩)
    (hmodules : ds.modules = table o.digest A ready) (hoptions : ds.options = o) :
    ds.loadSlot k kind pos (a.bytes kind).length =
      ({ ds with modules := table o.digest A (setReady ready kind k) }, .ok ()) := by
  have hvalid : Section.isChecksumValid o ⟨a.bytes kind, o.digest (a.bytes kind)⟩ = true := by
    simp [Section.isChecksumValid]
  rw [EszipDataSection.loadSlot, hoptions, hread]
  simp only [hvalid, if_true]
  rw [hmodules, wakeModuleWithSlot_table hk hb hpending]

/-! ## An eszip of one module -/

/-- The eszip of the one module `k`. -/
def oneModule (k : String) (source sourceMap : List UInt8) : Archive :=
  AList.singleton k (.module source sourceMap)

section OneModule

variable {o : Options} {k : String} {source sourceMap : List UInt8}

theorem lookup_oneModule (k : String) (source sourceMap : List UInt8) :
    (oneModule k source sourceMap).lookup k = some (.module source sourceMap) :=
  AList.mem_lookup_iff.2 (by simp [oneModule, AList.singleton_entries])

theorem entries_table_oneModule (digest : List UInt8 → List UInt8) (ready : SlotKind → String → Bool) :
    (table digest (oneModule k source sourceMap) ready).entries =
      [⟨k, .module (slotAt (ready .source k) 0 source) (slotAt (ready .sourceMap k) 0 sourceMap)⟩] :=
  rfl

theorem dataSection_oneModule (digest : List UInt8 → List UInt8) :
    dataSection digest (oneModule k source sourceMap) =
      be32 (chunk digest source).length ++ chunk digest source ++
        be32 (chunk digest sourceMap).length ++ chunk digest sourceMap := by
  simp only [dataSection, oneModule, AList.singleton_entries, sectionBytes, ArchiveModule.bytes,
    List.append_nil]

/-- The data section `EszipDataSection::new` makes of the bytes `pre`
followed by the data section of the eszip. -/
def freshSection (o : Options) (pre : List UInt8) (A : Archive) : EszipDataSection :=
  .new (pre ++ dataSection o.digest A) pre.length (table o.digest A fun _ _ => false) o

/-- Both slots of the module loaded. -/
def bothReady (k : String) : SlotKind → String → Bool :=
  setReady (setReady (fun _ _ => false) .source k) .sourceMap k

theorem fits_oneModule (digest : List UInt8 → List UInt8) :
    Fits digest (oneModule k source sourceMap) ↔
      (chunk digest source).length < 2 ^ 32 ∧ (chunk digest sourceMap).length < 2 ^ 32 := by
  simp only [Fits, oneModule, AList.singleton_entries, sectionBytes, ArchiveModule.bytes,
    List.append_nil]

/-- The location the first lazy load records for the module. -/
theorem lookup_locsOf_oneModule (digest : List UInt8 → List UInt8) (hs : source ≠ [])
    (hm : sourceMap ≠ []) :
    (locsOf (table digest (oneModule k source sourceMap) fun _ _ => false)).lookup k =
      some (.hasLocation ⟨0, source.length, 0, sourceMap.length⟩) := by
  have hentry : metadataOf (.module (slotAt false 0 source) (slotAt false 0 sourceMap)) =
      some (.hasLocation ⟨0, source.length, 0, sourceMap.length⟩) := by
    rw [slotAt_false_of_ne_nil 0 hs, slotAt_false_of_ne_nil 0 hm]
    rfl
  rw [locsOf, entries_table_oneModule]
  simp [hentry, collect, AList.lookup, AList.singleton_entries]

/-! ### The reads of the layout

Where each read of the two loaders finds what the encoder wrote: the
sources' length at the start, the source after it, and after the source and
its checksum the source maps' length and the source map. -/

theorem readU32_sources_oneModule (hfits : Fits o.digest (oneModule k source sourceMap))
    (pre : List UInt8) :
    readU32 (pre ++ dataSection o.digest (oneModule k source sourceMap)) pre.length =
      some (chunk o.digest source).length := by
  have h := readU32_append pre
    (chunk o.digest source ++ be32 (chunk o.digest sourceMap).length ++ chunk o.digest sourceMap)
    ((fits_oneModule o.digest).1 hfits).1
  simpa [dataSection_oneModule, List.append_assoc] using h

theorem readU32_sourceMaps_oneModule (ho : o.Fixed) (hs : source ≠ [])
    (hfits : Fits o.digest (oneModule k source sourceMap)) (pre : List UInt8) :
    readU32 (pre ++ dataSection o.digest (oneModule k source sourceMap))
      (pre.length + 4 + (source.length + o.checksumSize)) = some (chunk o.digest sourceMap).length := by
  have h := readU32_append (pre ++ be32 (chunk o.digest source).length ++ chunk o.digest source)
    (chunk o.digest sourceMap) ((fits_oneModule o.digest).1 hfits).2
  have hpos : (pre ++ be32 (chunk o.digest source).length ++ chunk o.digest source).length =
      pre.length + 4 + (source.length + o.checksumSize) := by
    simp only [List.length_append, length_be32, length_chunk_of_ne_nil ho hs]
  rw [hpos] at h
  simpa [dataSection_oneModule, List.append_assoc] using h

theorem readWithSize_source_oneModule (ho : o.Fixed) (hs : source ≠ []) (pre : List UInt8) :
    Section.readWithSize o (pre ++ dataSection o.digest (oneModule k source sourceMap))
      (pre.length + 4) source.length = some ⟨source, o.digest source⟩ := by
  have h := readWithSize_chunk ho hs (pre ++ be32 (chunk o.digest source).length)
    (be32 (chunk o.digest sourceMap).length ++ chunk o.digest sourceMap)
  simpa [dataSection_oneModule, List.append_assoc] using h

theorem readWithSize_sourceMap_oneModule (ho : o.Fixed) (hs : source ≠ []) (hm : sourceMap ≠ [])
    (pre : List UInt8) :
    Section.readWithSize o (pre ++ dataSection o.digest (oneModule k source sourceMap))
      (pre.length + 4 + (source.length + o.checksumSize) + 4) sourceMap.length =
        some ⟨sourceMap, o.digest sourceMap⟩ := by
  have h := readWithSize_chunk ho hm (pre ++ be32 (chunk o.digest source).length ++
    chunk o.digest source ++ be32 (chunk o.digest sourceMap).length) []
  have hpos : (pre ++ be32 (chunk o.digest source).length ++ chunk o.digest source ++
      be32 (chunk o.digest sourceMap).length).length =
        pre.length + 4 + (source.length + o.checksumSize) + 4 := by
    simp only [List.length_append, length_be32, length_chunk_of_ne_nil ho hs]
  rw [hpos] at h
  simpa [dataSection_oneModule, List.append_assoc] using h

/-! ### The two loaders -/

/-- A lazy load of the module reads both its sections and records its
location in `loaded_locs`. -/
theorem readDataSectionBySpecifier_oneModule (ho : o.Fixed) (hs : source ≠ []) (hm : sourceMap ≠ [])
    (hfits : Fits o.digest (oneModule k source sourceMap)) (pre : List UInt8) :
    ∃ sourcesLen locs,
      (freshSection o pre (oneModule k source sourceMap)).readDataSectionBySpecifier k =
        (⟨pre ++ dataSection o.digest (oneModule k source sourceMap),
          table o.digest (oneModule k source sourceMap) (bothReady k), o, pre.length, sourcesLen, locs,
          (∅ : AList fun _ : String => DataLoc).insert k ⟨0, source.length, 0, sourceMap.length⟩⟩,
          .ok ()) := by
  have hk := lookup_oneModule k source sourceMap
  have hslen : source.length ≠ 0 := fun h => hs (List.length_eq_zero_iff.1 h)
  have hmlen : sourceMap.length ≠ 0 := fun h => hm (List.length_eq_zero_iff.1 h)
  -- `sources_len` is read from the buffer by the source-map half
  have hsourcesLen : pre.length + 4 + (chunk o.digest source).length + 4 + 0 =
      pre.length + 4 + (source.length + o.checksumSize) + 4 := by
    rw [length_chunk_of_ne_nil ho hs, Nat.add_zero]
  refine ⟨some (chunk o.digest source).length,
    some ((locsOf (table o.digest (oneModule k source sourceMap) fun _ _ => false)).replace k
      .pendingOrAlreadyLoaded), ?_⟩
  simp only [EszipDataSection.readDataSectionBySpecifier, freshSection, EszipDataSection.new,
    Option.getD_none, lookup_locsOf_oneModule o.digest hs hm, EszipDataSection.loadSource, hslen,
    if_false, Nat.add_zero]
  erw [@loadSlot_table o _ (fun _ _ => false) k (.module source sourceMap) .source hk hs rfl _
    (pre.length + 4) (readWithSize_source_oneModule ho hs pre) rfl rfl]
  dsimp only
  simp only [EszipDataSection.loadSourceMap, hmlen, if_false, readU32_sources_oneModule hfits pre]
  rw [hsourcesLen]
  erw [@loadSlot_table o _ (setReady (fun _ _ => false) .source k) k (.module source sourceMap)
    .sourceMap hk hm (by simp [setReady]) _ _ (readWithSize_sourceMap_oneModule ho hs hm pre) rfl rfl]
  rfl

/-- With nothing loaded, each table holds the module's one section, to be
read. -/
theorem offsetEntries_fresh (digest : List UInt8 → List UInt8) (hs : source ≠ []) (hm : sourceMap ≠ []) :
    offsetEntries .source (table digest (oneModule k source sourceMap) fun _ _ => false).entries ∅ =
      ([(0, ⟨source.length, k, true⟩)], ∅) ∧
    offsetEntries .sourceMap (table digest (oneModule k source sourceMap) fun _ _ => false).entries ∅ =
      ([(0, ⟨sourceMap.length, k, true⟩)], ∅) := by
  rw [entries_table_oneModule, slotAt_false_of_ne_nil 0 hs, slotAt_false_of_ne_nil 0 hm]
  exact ⟨rfl, rfl⟩

/-- An eager `read_data_section_all` loads both slots with their bytes. -/
theorem readDataSectionAll_fresh_oneModule (ho : o.Fixed) (hs : source ≠ []) (hm : sourceMap ≠ [])
    (hfits : Fits o.digest (oneModule k source sourceMap)) (pre : List UInt8) :
    readDataSectionAll (freshSection o pre (oneModule k source sourceMap)) =
      .ok (table o.digest (oneModule k source sourceMap) (bothReady k)) := by
  have hk := lookup_oneModule k source sourceMap
  have hchunk := length_chunk_of_ne_nil ho hs
  have hchunkMap := length_chunk_of_ne_nil ho hm
  have htotal : ∀ b : List UInt8, (Section.mk b (o.digest b)).totalLen = b.length + o.checksumSize := by
    intro b
    rw [Section.totalLen, ho]
  have hvalid : ∀ b : List UInt8, (Section.mk b (o.digest b)).isChecksumValid o = true := by
    intro b
    simp [Section.isChecksumValid]
  have hsources : readSections o (pre ++ dataSection o.digest (oneModule k source sourceMap)) .source
      (fun length => length + 32) (chunk o.digest source).length
      (collect [(0, ⟨source.length, k, true⟩)]) 0 (pre.length + 4)
      (table o.digest (oneModule k source sourceMap) fun _ _ => false) =
        .ok (table o.digest (oneModule k source sourceMap) (setReady (fun _ _ => false) .source k),
          pre.length + 4 + (source.length + o.checksumSize)) := by
    rw [readSections_load (by rw [hchunk]; have := List.length_pos_iff.2 hs; omega) rfl
      (readWithSize_source_oneModule ho hs pre) (hvalid source)
      (@wakeModuleWithSlot_table o.digest _ _ k _ .source hk hs rfl), htotal,
      readSections_done (by rw [hchunk]; omega)]
  have hsourceMaps : readSections o (pre ++ dataSection o.digest (oneModule k source sourceMap))
      .sourceMap (fun length => length + o.checksumSize) (chunk o.digest sourceMap).length
      (collect [(0, ⟨sourceMap.length, k, true⟩)]) 0 (pre.length + 4 + (source.length + o.checksumSize) + 4)
      (table o.digest (oneModule k source sourceMap) (setReady (fun _ _ => false) .source k)) =
        .ok (table o.digest (oneModule k source sourceMap) (bothReady k),
          pre.length + 4 + (source.length + o.checksumSize) + 4 + (sourceMap.length + o.checksumSize)) := by
    rw [readSections_load (by rw [hchunkMap]; have := List.length_pos_iff.2 hm; omega) rfl
      (readWithSize_sourceMap_oneModule ho hs hm pre) (hvalid sourceMap)
      (@wakeModuleWithSlot_table o.digest _ _ k _ .sourceMap hk hm (by simp [setReady])), htotal,
      readSections_done (by rw [hchunkMap]; omega)]
    rfl
  obtain ⟨hsourceTable, hsourceMapTable⟩ := offsetEntries_fresh (k := k) o.digest hs hm
  simp only [readDataSectionAll, freshSection, EszipDataSection.new, readU32_sources_oneModule hfits pre,
    hsourceTable, hsourceMapTable]
  rw [hsources]
  simp only [readU32_sourceMaps_oneModule ho hs hfits pre]
  rw [hsourceMaps]
  rfl

/-- After the lazy load, the sources' table holds the module's source as
loaded, and taking it out of `loaded_locs` leaves the source maps' table
empty. -/
theorem offsetEntries_bothReady (digest : List UInt8 → List UInt8) (k : String)
    (source sourceMap : List UInt8) (loc : DataLoc) :
    offsetEntries .source (table digest (oneModule k source sourceMap) (bothReady k)).entries
        ((∅ : AList fun _ : String => DataLoc).insert k loc) =
      ([(loc.sourceOffset, ⟨loc.sourceLength, k, false⟩)],
        ((∅ : AList fun _ : String => DataLoc).insert k loc).erase k) ∧
    offsetEntries .sourceMap (table digest (oneModule k source sourceMap) (bothReady k)).entries
        (((∅ : AList fun _ : String => DataLoc).insert k loc).erase k) =
      ([], (((∅ : AList fun _ : String => DataLoc).insert k loc).erase k).erase k) := by
  rw [entries_table_oneModule]
  simp [offsetEntries, bothReady, setReady, V2Module.slot?, DataLoc.range, -AList.insert_empty]

/-- `read_data_section_all` after the lazy load: the sources loop skips the
loaded source, and the source-map loop finds no section at offset 0. -/
theorem readDataSectionAll_loaded_oneModule (ho : o.Fixed) (h32 : o.checksumSize = 32)
    (hs : source ≠ []) (hm : sourceMap ≠ []) (hfits : Fits o.digest (oneModule k source sourceMap))
    (pre : List UInt8) (sourcesLen : Option Nat) (locs : Option (AList fun _ : String => Metadata)) :
    readDataSectionAll
        ⟨pre ++ dataSection o.digest (oneModule k source sourceMap),
          table o.digest (oneModule k source sourceMap) (bothReady k), o, pre.length, sourcesLen, locs,
          (∅ : AList fun _ : String => DataLoc).insert k ⟨0, source.length, 0, sourceMap.length⟩⟩ =
      .error (.err (.invalidV2SourceOffset 0)) := by
  have hchunk := length_chunk_of_ne_nil ho hs
  have hchunkMap := length_chunk_of_ne_nil ho hm
  -- the sources loop seeks `length + 32` past the loaded source, which with
  -- 32-byte checksums lands on the source maps' length
  have hskip : readSections o (pre ++ dataSection o.digest (oneModule k source sourceMap)) .source
      (fun length => length + 32) (chunk o.digest source).length
      (collect [(0, ⟨source.length, k, false⟩)]) 0 (pre.length + 4)
      (table o.digest (oneModule k source sourceMap) (bothReady k)) =
        .ok (table o.digest (oneModule k source sourceMap) (bothReady k),
          pre.length + 4 + (source.length + o.checksumSize)) := by
    rw [readSections_skip (by rw [hchunk]; have := List.length_pos_iff.2 hs; omega)
      (show (collect [(0, (⟨source.length, k, false⟩ : OffsetEntry))]).lookup 0 =
        some ⟨source.length, k, false⟩ from rfl),
      readSections_done (by rw [hchunk]; omega), h32]
  have hmissing : readSections o (pre ++ dataSection o.digest (oneModule k source sourceMap)) .sourceMap
      (fun length => length + o.checksumSize) (chunk o.digest sourceMap).length (collect []) 0
      (pre.length + 4 + (source.length + o.checksumSize) + 4)
      (table o.digest (oneModule k source sourceMap) (bothReady k)) =
        .error (.err (.invalidV2SourceOffset 0)) :=
    readSections_missing (by rw [hchunkMap]; have := List.length_pos_iff.2 hm; omega) rfl
  obtain ⟨hsources, hsourceMaps⟩ := offsetEntries_bothReady o.digest k source sourceMap
    ⟨0, source.length, 0, sourceMap.length⟩
  simp only [readDataSectionAll, readU32_sources_oneModule hfits pre, hsources, hsourceMaps]
  rw [hskip]
  simp only [readU32_sourceMaps_oneModule ho hs hfits pre]
  rw [hmissing]
  rfl

end OneModule

/-! ## Lazy and eager loads disagree -/

/-- On an eszip of one module with a source and a source map, with 32-byte
checksums: `read_data_section_all` alone loads both slots with their bytes;
a lazy load of the module succeeds, and `read_data_section_all` after it
fails with `InvalidV2SourceOffset(0)`. -/
theorem readDataSectionAll_lazy_disagrees {o : Options} (ho : o.Fixed) (h32 : o.checksumSize = 32)
    (k : String) {source sourceMap : List UInt8} (hs : source ≠ []) (hm : sourceMap ≠ [])
    (hfits : Fits o.digest (oneModule k source sourceMap)) (pre : List UInt8) :
    readDataSectionAll (freshSection o pre (oneModule k source sourceMap)) =
        .ok (table o.digest (oneModule k source sourceMap) (bothReady k)) ∧
      ((freshSection o pre (oneModule k source sourceMap)).readDataSectionBySpecifier k).2 = .ok () ∧
      readDataSectionAll ((freshSection o pre (oneModule k source sourceMap)).loadEach [k]) =
        .error (.err (.invalidV2SourceOffset 0)) := by
  obtain ⟨sourcesLen, locs, hload⟩ := readDataSectionBySpecifier_oneModule ho hs hm hfits pre
  refine ⟨readDataSectionAll_fresh_oneModule ho hs hm hfits pre, by rw [hload], ?_⟩
  rw [EszipDataSection.loadEach, List.foldl_cons, List.foldl_nil, hload]
  exact readDataSectionAll_loaded_oneModule ho h32 hs hm hfits pre sourcesLen locs

/-- The module `main.ts` with the source `1` and the source map `{}`, with a
32-byte checksum that is all zeros. -/
theorem readDataSectionAll_lazy_disagrees_main :
    readDataSectionAll (freshSection ⟨32, fun _ => List.replicate 32 0⟩ []
        (oneModule "main.ts" [0x31] [0x7B, 0x7D])) =
        .ok (table (fun _ => List.replicate 32 0) (oneModule "main.ts" [0x31] [0x7B, 0x7D])
          (bothReady "main.ts")) ∧
      ((freshSection ⟨32, fun _ => List.replicate 32 0⟩ []
        (oneModule "main.ts" [0x31] [0x7B, 0x7D])).readDataSectionBySpecifier "main.ts").2 = .ok () ∧
      readDataSectionAll ((freshSection ⟨32, fun _ => List.replicate 32 0⟩ []
        (oneModule "main.ts" [0x31] [0x7B, 0x7D])).loadEach ["main.ts"]) =
        .error (.err (.invalidV2SourceOffset 0)) :=
  readDataSectionAll_lazy_disagrees (fun _ => List.length_replicate) rfl "main.ts" (by decide)
    (by decide) ((fits_oneModule _).2 (by decide)) []

end EdgeRuntime.Eszip
