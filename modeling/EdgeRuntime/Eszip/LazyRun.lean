import EdgeRuntime.Eszip.Loading
import EdgeRuntime.Eszip.ReadAll

/-!
# Lazy loads, one after another

`ensure_data` spawns one `read_data_section_by_specifier` per module the
runtime asks for; run one after another, in any order and with repeats, they
keep the data section in a state `LazyState` describes by the specifiers
loaded so far: the module table has both slots of each of them `Ready` with
its bytes and every other slot as `parse_v2_header` left it,
`sources_len` is unread or the sources' length, and `locs_by_specifier`
answers for each specifier the location the first load recorded, or
`PendingOrAlreadyLoaded` once the specifier was loaded.

The first load builds `locs_by_specifier` from the module table as it then
is (`lookup_locsOf`); a location is recorded for every module with a
non-empty slot, at the offsets the encoder laid its sections out
(`metadataOf_fresh`), and none for a redirect.  One load keeps `LazyState`
(`LazyState.load`): it reads the sections where the layout puts them, and a
second load of a module finds `PendingOrAlreadyLoaded` and reads nothing,
so no slot is woken twice and `wake_module_with_slot` never panics.

## Main results

* `lazyLoads_run`: after any run of lazy loads, the module table is the
  encoder's with exactly the modules loaded `Ready`, and the next load
  answers `Ok` for a module and the `bail!` for a redirect or a specifier
  the eszip lacks.
-/

namespace EdgeRuntime.Eszip

open EdgeRuntime.Verified

/-! ## The locations the first lazy load records -/

theorem mem_locsOf_pairs {modules : V2Modules} {p : String × Metadata} :
    p ∈ modules.entries.filterMap (fun e => (metadataOf e.2).map (e.1, ·)) ↔
      ∃ m, modules.lookup p.1 = some m ∧ metadataOf m = some p.2 := by
  rw [List.mem_filterMap]
  constructor
  · rintro ⟨⟨k, m⟩, he, hp⟩
    obtain ⟨md, hmd, rfl⟩ := Option.map_eq_some_iff.1 hp
    exact ⟨m, AList.mem_lookup_iff.2 he, hmd⟩
  · rintro ⟨m, hm, hmd⟩
    refine ⟨⟨p.1, m⟩, AList.mem_lookup_iff.1 hm, ?_⟩
    show (metadataOf m).map (p.1, ·) = some p
    rw [hmd]
    rfl

/-- `locs_by_specifier` as the first lazy load builds it holds, for each
specifier, the metadata of its module: a lookup in the collected map is a
lookup in the module table, since the table has one module per specifier. -/
theorem lookup_locsOf (modules : V2Modules) (k : String) :
    (locsOf modules).lookup k = (modules.lookup k).bind metadataOf := by
  rcases hmd : (modules.lookup k).bind metadataOf with _ | md
  · apply lookup_collect_of_not_mem
    intro hmem
    obtain ⟨⟨k', md⟩, hp, hk'⟩ := List.mem_map.1 hmem
    obtain ⟨m, hm, hmeta⟩ := mem_locsOf_pairs.1 hp
    change k' = k at hk'
    subst hk'
    rw [hm, Option.bind_some, hmeta] at hmd
    cases hmd
  · obtain ⟨m, hm, hmeta⟩ := Option.bind_eq_some_iff.1 hmd
    apply lookup_collect_of_unique (mem_locsOf_pairs.2 ⟨m, hm, hmeta⟩)
    intro md' hp
    obtain ⟨m', hm', hmeta'⟩ := mem_locsOf_pairs.1 hp
    have hmm : m' = m := Option.some.inj (hm'.symm.trans hm)
    rw [hmm, hmeta] at hmeta'
    exact (Option.some.inj hmeta').symm

/-- The `EszipDataLoc` of a module whose sections the encoder laid out from
`offset`: an empty slot has offset and length 0. -/
def layoutLoc (offset : SlotKind → Nat) (source sourceMap : List UInt8) : DataLoc :=
  ⟨(encodeLoc (offset .source) source).1, (encodeLoc (offset .source) source).2,
    (encodeLoc (offset .sourceMap) sourceMap).1, (encodeLoc (offset .sourceMap) sourceMap).2⟩

/-- The metadata the first lazy load records for a module with no slot
loaded: its location, or `PendingOrAlreadyLoaded` if both slots are empty. -/
theorem metadataOf_fresh (offset : SlotKind → Nat) (source sourceMap : List UInt8) :
    metadataOf ((ArchiveModule.module source sourceMap).toV2 (fun _ => false) offset) =
      some (if source = [] ∧ sourceMap = [] then .pendingOrAlreadyLoaded
        else .hasLocation (layoutLoc offset source sourceMap)) := by
  have hlen : ∀ b : List UInt8, b ≠ [] → b.length ≠ 0 := fun b hb h => hb (List.length_eq_zero_iff.1 h)
  -- the four ways the two slots can be empty
  by_cases hs : source = [] <;> by_cases hm : sourceMap = []
  · subst hs hm
    rfl
  · subst hs
    simp [ArchiveModule.toV2, slotAt_false_of_ne_nil _ hm, metadataOf, layoutLoc, encodeLoc, hm]
  · subst hm
    simp [ArchiveModule.toV2, slotAt_false_of_ne_nil _ hs, metadataOf, layoutLoc, encodeLoc, hs, hlen _ hs]
  · simp [ArchiveModule.toV2, slotAt_false_of_ne_nil _ hs, slotAt_false_of_ne_nil _ hm, metadataOf,
      layoutLoc, encodeLoc, hs, hm]

theorem lookup_table_of_lookup_eq_none {digest : List UInt8 → List UInt8} {A : Archive}
    {ready : SlotKind → String → Bool} {k : String} (h : A.lookup k = none) :
    (table digest A ready).lookup k = none := by
  rw [AList.lookup_eq_none, AList.mem_keys]
  show k ∉ (tableEntries digest ready (fun _ => 0) A.entries).keys
  rw [keys_tableEntries]
  exact AList.mem_keys.not.1 (AList.lookup_eq_none.1 h)

/-- The metadata the first lazy load records for a module of the eszip with
no slot loaded, at the offsets of its sections. -/
theorem lookup_locsOf_fresh {digest : List UInt8 → List UInt8} {A : Archive}
    {l₁ l₂ : List (Sigma fun _ : String => ArchiveModule)} {k : String} {a : ArchiveModule}
    (hA : A.entries = l₁ ++ ⟨k, a⟩ :: l₂) :
    (locsOf (table digest A fun _ _ => false)).lookup k =
      metadataOf (a.toV2 (fun _ => false) fun kind => (sectionBytes digest kind l₁).length) := by
  rw [lookup_locsOf, lookup_table hA, Option.bind_some]

/-- Metadata is recorded only for a specifier of the eszip. -/
theorem exists_entries_of_lookup_locsOf {digest : List UInt8 → List UInt8} {A : Archive} {k : String}
    {md : Metadata} (h : (locsOf (table digest A fun _ _ => false)).lookup k = some md) :
    ∃ l₁ l₂ a, A.entries = l₁ ++ ⟨k, a⟩ :: l₂ ∧
      metadataOf (a.toV2 (fun _ => false) fun kind => (sectionBytes digest kind l₁).length) = some md := by
  rcases ha : A.lookup k with _ | a
  · rw [lookup_locsOf, lookup_table_of_lookup_eq_none ha] at h
    cases h
  · obtain ⟨l₁, l₂, hA⟩ := List.append_of_mem (AList.mem_lookup_iff.1 ha)
    exact ⟨l₁, l₂, a, hA, by rw [← lookup_locsOf_fresh hA]; exact h⟩

/-! ## What the lazy loads keep -/

/-- The flags of the modules loaded: both slots of each specifier in `L`. -/
def loadedBy (L : List String) : SlotKind → String → Bool := fun _ k => decide (k ∈ L)

section Spec

variable (digest : List UInt8 → List UInt8) (A : Archive)

/-- What `locs_by_specifier` answers for `k` once the specifiers `L` were
loaded: the metadata the first load records, `PendingOrAlreadyLoaded` once
`k` is among them. -/
def lazyMetadata (L : List String) (k : String) : Option Metadata :=
  if k ∈ L then ((locsOf (table digest A fun _ _ => false)).lookup k).map fun _ => .pendingOrAlreadyLoaded
  else (locsOf (table digest A fun _ _ => false)).lookup k

/-- What a lazy load of `k` returns: `Ok` for a module, the `bail!` for a
redirect or a specifier the eszip lacks. -/
def lazyAnswer (k : String) : Except (Failure LoadError) Unit :=
  match A.lookup k with
  | some (.module _ _) => .ok ()
  | _ => .error (.err (.bail "given specifier does not exist in the eszip header"))

/-- What `loaded_locs_by_specifier` holds for `k` once the specifiers `L`
were loaded: the location the first load of `k` recorded, if it recorded
one. -/
def lazyLoc (L : List String) (k : String) : Option DataLoc :=
  if k ∈ L then
    match (locsOf (table digest A fun _ _ => false)).lookup k with
    | some (.hasLocation loc) => some loc
    | _ => none
  else none

end Spec

/-- The state lazy loads of the specifiers `L` leave behind, with the data
section of the eszip `A` after the bytes `pre`. -/
structure LazyState (o : Options) (pre : List UInt8) (A : Archive) (L : List String)
    (ds : EszipDataSection) : Prop where
  inner : ds.inner = pre ++ dataSection o.digest A
  initialOffset : ds.initialOffset = pre.length
  options : ds.options = o
  modules : ds.modules = table o.digest A (loadedBy L)
  sourcesLen : ds.sourcesLen = none ∨ ds.sourcesLen = some (sectionBytes o.digest .source A.entries).length
  locs : ∀ k, (ds.locsBySpecifier.getD (locsOf ds.modules)).lookup k = lazyMetadata o.digest A L k
  loaded : ∀ k, ds.loadedLocsBySpecifier.lookup k = lazyLoc o.digest A L k

section Spec

variable {digest : List UInt8 → List UInt8} {A : Archive} {L : List String} {k : String}

theorem lazyMetadata_nil (k : String) :
    lazyMetadata digest A [] k = (locsOf (table digest A fun _ _ => false)).lookup k := by
  rw [lazyMetadata, if_neg List.not_mem_nil]

theorem lazyMetadata_cons_self :
    lazyMetadata digest A (k :: L) k = (lazyMetadata digest A L k).map fun _ => .pendingOrAlreadyLoaded := by
  by_cases hk : k ∈ L
  · rw [lazyMetadata, if_pos List.mem_cons_self, lazyMetadata, if_pos hk, Option.map_map]
    rfl
  · rw [lazyMetadata, if_pos List.mem_cons_self, lazyMetadata, if_neg hk]

theorem lazyMetadata_cons_of_ne {k' : String} (h : k' ≠ k) :
    lazyMetadata digest A (k :: L) k' = lazyMetadata digest A L k' := by
  have hmem : k' ∈ k :: L ↔ k' ∈ L := by
    rw [List.mem_cons]
    exact or_iff_right h
  simp only [lazyMetadata, hmem]

/-- A location is recorded only for a module not yet loaded, at the offsets
of its sections. -/
theorem lazyMetadata_eq_hasLocation {loc : DataLoc}
    (h : lazyMetadata digest A L k = some (.hasLocation loc)) :
    k ∉ L ∧ ∃ l₁ l₂ source sourceMap, A.entries = l₁ ++ ⟨k, .module source sourceMap⟩ :: l₂ ∧
      loc = layoutLoc (fun kind => (sectionBytes digest kind l₁).length) source sourceMap := by
  by_cases hk : k ∈ L
  · rw [lazyMetadata, if_pos hk] at h
    obtain ⟨_, -, hmd⟩ := Option.map_eq_some_iff.1 h
    cases hmd
  rw [lazyMetadata, if_neg hk] at h
  obtain ⟨l₁, l₂, a, hA, hmeta⟩ := exists_entries_of_lookup_locsOf h
  refine ⟨hk, ?_⟩
  cases a with
  | redirect target => cases hmeta
  | module source sourceMap =>
      rw [metadataOf_fresh] at hmeta
      split at hmeta
      · cases hmeta
      · exact ⟨l₁, l₂, source, sourceMap, hA, (Metadata.hasLocation.inj (Option.some.inj hmeta)).symm⟩

/-- A specifier with `PendingOrAlreadyLoaded` was loaded, or is a module
with two empty slots. -/
theorem lazyMetadata_eq_pending (h : lazyMetadata digest A L k = some .pendingOrAlreadyLoaded) :
    k ∈ L ∨ A.lookup k = some (.module [] []) := by
  by_cases hk : k ∈ L
  · exact .inl hk
  rw [lazyMetadata, if_neg hk] at h
  obtain ⟨l₁, l₂, a, hA, hmeta⟩ := exists_entries_of_lookup_locsOf h
  refine .inr ((lookup_of_entries_eq hA).trans ?_)
  cases a with
  | redirect target => cases hmeta
  | module source sourceMap =>
      rw [metadataOf_fresh] at hmeta
      split at hmeta
      · rename_i hnil
        rw [hnil.1, hnil.2]
      · cases hmeta

/-- `locs_by_specifier` has an answer for exactly the modules. -/
theorem lazyMetadata_isSome_iff :
    (lazyMetadata digest A L k).isSome ↔ ∃ source sourceMap, A.lookup k = some (.module source sourceMap) := by
  have hfresh : ((locsOf (table digest A fun _ _ => false)).lookup k).isSome ↔
      ∃ source sourceMap, A.lookup k = some (.module source sourceMap) := by
    constructor
    · intro h
      obtain ⟨md, hmd⟩ := Option.isSome_iff_exists.1 h
      obtain ⟨l₁, l₂, a, hA, hmeta⟩ := exists_entries_of_lookup_locsOf hmd
      cases a with
      | redirect target => cases hmeta
      | module source sourceMap => exact ⟨source, sourceMap, lookup_of_entries_eq hA⟩
    · rintro ⟨source, sourceMap, hk⟩
      obtain ⟨l₁, l₂, hA⟩ := List.append_of_mem (AList.mem_lookup_iff.1 hk)
      rw [lookup_locsOf_fresh hA, metadataOf_fresh]
      rfl
  by_cases hk : k ∈ L
  · rw [lazyMetadata, if_pos hk, Option.isSome_map]
    exact hfresh
  · rw [lazyMetadata, if_neg hk]
    exact hfresh

theorem lazyAnswer_of_isSome (h : (lazyMetadata digest A L k).isSome) : lazyAnswer A k = .ok () := by
  obtain ⟨source, sourceMap, hk⟩ := lazyMetadata_isSome_iff.1 h
  rw [lazyAnswer, hk]

theorem lazyAnswer_of_eq_none (h : lazyMetadata digest A L k = none) :
    lazyAnswer A k = .error (.err (.bail "given specifier does not exist in the eszip header")) := by
  rw [lazyAnswer]
  split
  · rename_i source sourceMap hk
    have := (@lazyMetadata_isSome_iff digest A L k).2 ⟨source, sourceMap, hk⟩
    rw [h] at this
    cases this
  · rfl

/-- A load that records no location leaves `loaded_locs_by_specifier` as
it was. -/
theorem lazyLoc_cons_of_not (h : ∀ loc, lazyMetadata digest A L k ≠ some (.hasLocation loc)) :
    ∀ k', lazyLoc digest A (k :: L) k' = lazyLoc digest A L k' := by
  intro k'
  by_cases hk' : k' = k
  · subst hk'
    by_cases hk : k' ∈ L
    · simp only [lazyLoc, if_pos List.mem_cons_self, if_pos hk]
    · -- the answer is the one the first load recorded, which is no location
      rw [lazyMetadata, if_neg hk] at h
      rw [lazyLoc, if_pos List.mem_cons_self, lazyLoc, if_neg hk]
      split
      · rename_i loc hloc
        exact absurd hloc (h loc)
      · rfl
  · have hmem : k' ∈ k :: L ↔ k' ∈ L := by
      rw [List.mem_cons]
      exact or_iff_right hk'
    simp only [lazyLoc, hmem]

theorem lazyLoc_cons_self {loc : DataLoc} (h : lazyMetadata digest A L k = some (.hasLocation loc)) :
    lazyLoc digest A (k :: L) k = some loc := by
  by_cases hk : k ∈ L
  · rw [lazyMetadata, if_pos hk] at h
    obtain ⟨_, -, hmd⟩ := Option.map_eq_some_iff.1 h
    cases hmd
  · rw [lazyMetadata, if_neg hk] at h
    rw [lazyLoc, if_pos List.mem_cons_self, h]

theorem lazyLoc_cons_of_ne {k' : String} (h : k' ≠ k) :
    lazyLoc digest A (k :: L) k' = lazyLoc digest A L k' := by
  have hmem : k' ∈ k :: L ↔ k' ∈ L := by
    rw [List.mem_cons]
    exact or_iff_right h
  simp only [lazyLoc, hmem]

/-- The answers after one more load: `k` becomes `PendingOrAlreadyLoaded`
if it had an answer, and nothing else changes. -/
theorem lazyMetadata_cons {locs : AList fun _ : String => Metadata}
    (hk : locs.lookup k = (lazyMetadata digest A L k).map fun _ => .pendingOrAlreadyLoaded)
    (hother : ∀ k', k' ≠ k → locs.lookup k' = lazyMetadata digest A L k') :
    ∀ k', locs.lookup k' = lazyMetadata digest A (k :: L) k' := by
  intro k'
  by_cases hk' : k' = k
  · subst hk'
    rw [hk, lazyMetadata_cons_self]
  · rw [hother k' hk', lazyMetadata_cons_of_ne hk']

end Spec

/-! ## The flags of the modules loaded -/

theorem loadedBy_cons_of_loaded {digest : List UInt8 → List UInt8} {A : Archive} {L : List String}
    {k : String} (h : ∀ a, A.lookup k = some a → ∀ kind, a.bytes kind ≠ [] → k ∈ L) :
    table digest A (loadedBy (k :: L)) = table digest A (loadedBy L) := by
  apply table_congr
  intro k' a hk' kind hb
  by_cases hkk : k' = k
  · subst hkk
    simp [loadedBy, h a hk' kind hb]
  · simp [loadedBy, hkk]

theorem setReady_setReady_loadedBy (L : List String) (k : String) :
    setReady (setReady (loadedBy L) .source k) .sourceMap k = loadedBy (k :: L) := by
  funext kind k'
  cases kind <;> by_cases hk : k' = k <;> simp [setReady, loadedBy, hk]

/-- The flag of an empty slot does not matter. -/
theorem table_setReady_of_nil {digest : List UInt8 → List UInt8} {A : Archive}
    {ready : SlotKind → String → Bool} {k : String} {a : ArchiveModule} {kind : SlotKind}
    (hk : A.lookup k = some a) (hb : a.bytes kind = []) :
    table digest A (setReady ready kind k) = table digest A ready := by
  apply table_congr
  intro k' a' hk' kind' hb'
  by_cases hkk : k' = k ∧ kind' = kind
  · obtain ⟨rfl, rfl⟩ := hkk
    rw [hk] at hk'
    cases hk'
    exact absurd hb hb'
  · simp only [setReady, Bool.or_eq_left_iff_imp, Bool.and_eq_true, decide_eq_true_eq]
    exact fun h => absurd ⟨h.2, h.1⟩ hkk

/-! ## Reading a module's sections where the layout puts them -/

section Reads

variable {o : Options} {A : Archive} {l₁ l₂ : List (Sigma fun _ : String => ArchiveModule)} {k : String}
  {a : ArchiveModule}

/-- The source of a module is read back at the offset of its section, past
the sources' length. -/
theorem readWithSize_dataSection_source (ho : o.Fixed) (hA : A.entries = l₁ ++ ⟨k, a⟩ :: l₂)
    (hb : a.bytes .source ≠ []) (pre : List UInt8) :
    Section.readWithSize o (pre ++ dataSection o.digest A)
        (pre.length + 4 + (sectionBytes o.digest .source l₁).length) (a.bytes .source).length =
      some ⟨a.bytes .source, o.digest (a.bytes .source)⟩ := by
  have hS : sectionBytes o.digest .source A.entries = sectionBytes o.digest .source l₁ ++
      chunk o.digest (a.bytes .source) ++ sectionBytes o.digest .source l₂ := by
    rw [hA, sectionBytes_append, sectionBytes, List.append_assoc]
  -- the bytes before the section, whatever the sources' length reads
  have hbuf : pre ++ dataSection o.digest A =
      (pre ++ be32 (sectionBytes o.digest .source A.entries).length ++ sectionBytes o.digest .source l₁) ++
        chunk o.digest (a.bytes .source) ++
        (sectionBytes o.digest .source l₂ ++ be32 (sectionBytes o.digest .sourceMap A.entries).length ++
          sectionBytes o.digest .sourceMap A.entries) := by
    simp only [dataSection, hS, List.append_assoc]
  have hpos : pre.length + 4 + (sectionBytes o.digest .source l₁).length =
      (pre ++ be32 (sectionBytes o.digest .source A.entries).length ++ sectionBytes o.digest .source l₁).length := by
    simp only [List.length_append, length_be32]
  rw [hbuf, hpos]
  exact readWithSize_chunk ho hb _ _

/-- The source map of a module is read back at the offset of its section,
past the sources and the source maps' length. -/
theorem readWithSize_dataSection_sourceMap (ho : o.Fixed) (hA : A.entries = l₁ ++ ⟨k, a⟩ :: l₂)
    (hb : a.bytes .sourceMap ≠ []) (pre : List UInt8) :
    Section.readWithSize o (pre ++ dataSection o.digest A)
        (pre.length + 4 + (sectionBytes o.digest .source A.entries).length + 4 +
          (sectionBytes o.digest .sourceMap l₁).length) (a.bytes .sourceMap).length =
      some ⟨a.bytes .sourceMap, o.digest (a.bytes .sourceMap)⟩ := by
  have hM : sectionBytes o.digest .sourceMap A.entries = sectionBytes o.digest .sourceMap l₁ ++
      chunk o.digest (a.bytes .sourceMap) ++ sectionBytes o.digest .sourceMap l₂ := by
    rw [hA, sectionBytes_append, sectionBytes, List.append_assoc]
  have hbuf : pre ++ dataSection o.digest A =
      (pre ++ be32 (sectionBytes o.digest .source A.entries).length ++ sectionBytes o.digest .source A.entries ++
        be32 (sectionBytes o.digest .sourceMap A.entries).length ++ sectionBytes o.digest .sourceMap l₁) ++
        chunk o.digest (a.bytes .sourceMap) ++ sectionBytes o.digest .sourceMap l₂ := by
    simp only [dataSection, hM, List.append_assoc]
  have hpos : pre.length + 4 + (sectionBytes o.digest .source A.entries).length + 4 +
        (sectionBytes o.digest .sourceMap l₁).length =
      (pre ++ be32 (sectionBytes o.digest .source A.entries).length ++ sectionBytes o.digest .source A.entries ++
        be32 (sectionBytes o.digest .sourceMap A.entries).length ++ sectionBytes o.digest .sourceMap l₁).length := by
    simp only [List.length_append, length_be32]
  rw [hbuf, hpos]
  exact readWithSize_chunk ho hb _ _

end Reads

/-! ## One lazy load of a module not loaded before -/

section Halves

variable {o : Options} {A : Archive} {l₁ l₂ : List (Sigma fun _ : String => ArchiveModule)} {k : String}
  {pre : List UInt8} {ds : EszipDataSection} {ready : SlotKind → String → Bool} {source sourceMap : List UInt8}

/-- The source half of a lazy load wakes the source slot with its bytes;
an empty source is not read, and its slot was `Ready` already. -/
theorem loadSource_layout (ho : o.Fixed) (hA : A.entries = l₁ ++ ⟨k, .module source sourceMap⟩ :: l₂)
    (hinner : ds.inner = pre ++ dataSection o.digest A) (hoff : ds.initialOffset = pre.length)
    (hopt : ds.options = o) (hmod : ds.modules = table o.digest A ready) (hready : ready .source k = false) :
    ds.loadSource k (layoutLoc (fun kind => (sectionBytes o.digest kind l₁).length) source sourceMap) =
      ({ ds with modules := table o.digest A (setReady ready .source k) }, .ok ()) := by
  have hk : A.lookup k = some (.module source sourceMap) := lookup_of_entries_eq hA
  by_cases hs : source = []
  · rw [table_setReady_of_nil hk (show (ArchiveModule.module source sourceMap).bytes .source = [] from hs),
      ← hmod, EszipDataSection.loadSource, if_pos (by simp [layoutLoc, encodeLoc, hs])]
  · have hlen : source.length ≠ 0 := fun h => hs (List.length_eq_zero_iff.1 h)
    have hloc : (layoutLoc (fun kind => (sectionBytes o.digest kind l₁).length) source sourceMap).sourceOffset =
          (sectionBytes o.digest .source l₁).length ∧
        (layoutLoc (fun kind => (sectionBytes o.digest kind l₁).length) source sourceMap).sourceLength =
          source.length := by
      simp [layoutLoc, encodeLoc, hs]
    have hb : (ArchiveModule.module source sourceMap).bytes .source ≠ [] := hs
    rw [EszipDataSection.loadSource, hloc.1, hloc.2, if_neg hlen]
    exact loadSlot_table hk hb hready ds
      (by rw [hinner, hoff]; exact readWithSize_dataSection_source ho hA hb pre) hmod hopt

/-- The source-map half of a lazy load wakes the source-map slot with its
bytes, with `sources_len` read from the cursor if it was not before; an
empty source map is not read. -/
theorem loadSourceMap_layout (ho : o.Fixed) (hfits : Fits o.digest A)
    (hA : A.entries = l₁ ++ ⟨k, .module source sourceMap⟩ :: l₂)
    (hinner : ds.inner = pre ++ dataSection o.digest A) (hoff : ds.initialOffset = pre.length)
    (hopt : ds.options = o) (hmod : ds.modules = table o.digest A ready) (hready : ready .sourceMap k = false)
    (hsl : ds.sourcesLen = none ∨ ds.sourcesLen = some (sectionBytes o.digest .source A.entries).length) :
    ds.loadSourceMap k (layoutLoc (fun kind => (sectionBytes o.digest kind l₁).length) source sourceMap) =
      ({ ds with
          sourcesLen := if sourceMap = [] then ds.sourcesLen
            else some (sectionBytes o.digest .source A.entries).length
          modules := table o.digest A (setReady ready .sourceMap k) }, .ok ()) := by
  have hk : A.lookup k = some (.module source sourceMap) := lookup_of_entries_eq hA
  by_cases hm : sourceMap = []
  · rw [if_pos hm, table_setReady_of_nil hk (show (ArchiveModule.module source sourceMap).bytes .sourceMap = [] from hm),
      ← hmod, EszipDataSection.loadSourceMap, if_pos (by simp [layoutLoc, encodeLoc, hm])]
  · have hlen : sourceMap.length ≠ 0 := fun h => hm (List.length_eq_zero_iff.1 h)
    have hloc : (layoutLoc (fun kind => (sectionBytes o.digest kind l₁).length) source sourceMap).sourceMapOffset =
          (sectionBytes o.digest .sourceMap l₁).length ∧
        (layoutLoc (fun kind => (sectionBytes o.digest kind l₁).length) source sourceMap).sourceMapLength =
          sourceMap.length := by
      simp [layoutLoc, encodeLoc, hm]
    have hb : (ArchiveModule.module source sourceMap).bytes .sourceMap ≠ [] := hm
    have hread : Section.readWithSize o ds.inner
        (ds.initialOffset + 4 + (sectionBytes o.digest .source A.entries).length + 4 +
          (sectionBytes o.digest .sourceMap l₁).length) sourceMap.length = some ⟨sourceMap, o.digest sourceMap⟩ := by
      rw [hinner, hoff]
      exact readWithSize_dataSection_sourceMap ho hA hb pre
    rw [if_neg hm, EszipDataSection.loadSourceMap, hloc.1, hloc.2, if_neg hlen]
    -- `sources_len` is the sources' length, whether cached or read now
    rcases hsl with hsl | hsl
    · have hsources : readU32 ds.inner ds.initialOffset = some (sectionBytes o.digest .source A.entries).length := by
        rw [hinner, hoff]
        exact readU32_dataSection_sources hfits pre
      simp only [hsl, hsources]
      exact loadSlot_table hk hb hready _ hread hmod hopt
    · simp only [hsl]
      exact loadSlot_table hk hb hready _ hread hmod hopt

end Halves

/-! ## A run of lazy loads -/

section Run

variable {o : Options} {pre : List UInt8} {A : Archive} {L : List String} {ds : EszipDataSection}

theorem lazyState_fresh (o : Options) (pre : List UInt8) (A : Archive) :
    LazyState o pre A [] (freshSection o pre A) where
  inner := rfl
  initialOffset := rfl
  options := rfl
  -- no specifier is in `[]`, so no flag is set
  modules := rfl
  sourcesLen := .inl rfl
  locs := fun k => by
    show (locsOf (table o.digest A fun _ _ => false)).lookup k = _
    rw [lazyMetadata_nil]
  loaded := fun k => by
    show (∅ : AList fun _ : String => DataLoc).lookup k = _
    rw [lazyLoc, if_neg List.not_mem_nil]
    rfl

/-- A load that reads nothing keeps the state of a run with its specifier
added: only `locs_by_specifier` changes, from unbuilt to built. -/
theorem LazyState.keep (h : LazyState o pre A L ds) {k : String}
    (hslots : ∀ a, A.lookup k = some a → ∀ kind, a.bytes kind ≠ [] → k ∈ L)
    (hnot : ∀ loc, lazyMetadata o.digest A L k ≠ some (.hasLocation loc)) :
    LazyState o pre A (k :: L) { ds with locsBySpecifier := some (ds.locsBySpecifier.getD (locsOf ds.modules)) } := by
  refine ⟨h.inner, h.initialOffset, h.options, ?_, h.sourcesLen, ?_, ?_⟩
  · rw [h.modules, loadedBy_cons_of_loaded hslots]
  · -- the answer for `k` was none or `PendingOrAlreadyLoaded` already
    have hk : (ds.locsBySpecifier.getD (locsOf ds.modules)).lookup k =
        (lazyMetadata o.digest A L k).map fun _ => .pendingOrAlreadyLoaded := by
      rw [h.locs k]
      cases hmeta : lazyMetadata o.digest A L k with
      | none => rfl
      | some md =>
          cases md with
          | hasLocation loc => exact absurd hmeta (hnot loc)
          | pendingOrAlreadyLoaded => rfl
    exact lazyMetadata_cons hk fun k' _ => h.locs k'
  · intro k'
    rw [lazyLoc_cons_of_not hnot k']
    exact h.loaded k'

/-- A load of a specifier without an answer: the `bail!`, with
`locs_by_specifier` built and nothing else changed. -/
theorem LazyState.load_of_none (h : LazyState o pre A L ds) {k : String}
    (hmeta : lazyMetadata o.digest A L k = none) :
    LazyState o pre A (k :: L) (ds.readDataSectionBySpecifier k).1 ∧
      (ds.readDataSectionBySpecifier k).2 = lazyAnswer A k := by
  have hread : ds.readDataSectionBySpecifier k =
      ({ ds with locsBySpecifier := some (ds.locsBySpecifier.getD (locsOf ds.modules)) },
        .error (.err (.bail "given specifier does not exist in the eszip header"))) := by
    rw [EszipDataSection.readDataSectionBySpecifier]
    simp only [h.locs k, hmeta]
  -- a redirect or a specifier the eszip lacks has no slot whose flag could change
  have hslots : ∀ a, A.lookup k = some a → ∀ kind, a.bytes kind ≠ [] → k ∈ L := by
    intro a ha kind hb
    obtain ⟨source, sourceMap, rfl⟩ := exists_module_of_bytes_ne_nil hb
    have := (@lazyMetadata_isSome_iff o.digest A L k).2 ⟨source, sourceMap, ha⟩
    rw [hmeta] at this
    cases this
  rw [hread, lazyAnswer_of_eq_none hmeta]
  exact ⟨h.keep hslots (fun loc hloc => by rw [hmeta] at hloc; cases hloc), rfl⟩

/-- A load of a specifier with `PendingOrAlreadyLoaded`: `Ok`, and nothing
read. -/
theorem LazyState.load_of_pending (h : LazyState o pre A L ds) {k : String}
    (hmeta : lazyMetadata o.digest A L k = some .pendingOrAlreadyLoaded) :
    LazyState o pre A (k :: L) (ds.readDataSectionBySpecifier k).1 ∧
      (ds.readDataSectionBySpecifier k).2 = lazyAnswer A k := by
  have hread : ds.readDataSectionBySpecifier k =
      ({ ds with locsBySpecifier := some (ds.locsBySpecifier.getD (locsOf ds.modules)) }, .ok ()) := by
    rw [EszipDataSection.readDataSectionBySpecifier]
    simp only [h.locs k, hmeta]
  -- the module was loaded before, or has no slot to load
  have hslots : ∀ a, A.lookup k = some a → ∀ kind, a.bytes kind ≠ [] → k ∈ L := by
    intro a ha kind hb
    rcases lazyMetadata_eq_pending hmeta with hk | hempty
    · exact hk
    · rw [hempty] at ha
      cases ha
      cases kind <;> exact absurd rfl hb
  rw [hread, lazyAnswer_of_isSome (by rw [hmeta]; rfl)]
  exact ⟨h.keep hslots (fun loc hloc => by rw [hmeta] at hloc; cases hloc), rfl⟩

/-- A load of a specifier with a location: both halves read their sections
where the layout puts them, and the module is marked
`PendingOrAlreadyLoaded`. -/
theorem LazyState.load_of_hasLocation (ho : o.Fixed) (hfits : Fits o.digest A) (h : LazyState o pre A L ds)
    {k : String} {loc : DataLoc} (hmeta : lazyMetadata o.digest A L k = some (.hasLocation loc)) :
    LazyState o pre A (k :: L) (ds.readDataSectionBySpecifier k).1 ∧
      (ds.readDataSectionBySpecifier k).2 = lazyAnswer A k := by
  have hanswer := lazyAnswer_of_isSome (show (lazyMetadata o.digest A L k).isSome by rw [hmeta]; rfl)
  have hmem : k ∈ ds.locsBySpecifier.getD (locsOf ds.modules) :=
    AList.lookup_isSome.1 (by rw [h.locs k, hmeta]; rfl)
  obtain ⟨hk, l₁, l₂, source, sourceMap, hA, rfl⟩ := lazyMetadata_eq_hasLocation hmeta
  have hsource : loadedBy L .source k = false := by simp [loadedBy, hk]
  have hsourceMap : setReady (loadedBy L) .source k .sourceMap k = false := by simp [setReady, loadedBy, hk]
  rw [EszipDataSection.readDataSectionBySpecifier]
  simp only [h.locs k, hmeta]
  -- the two halves run on the state with the module marked and its location kept
  rw [@loadSource_layout o A l₁ l₂ k pre _ (loadedBy L) source sourceMap ho hA ?inner ?off ?opt ?mod hsource]
  case inner => exact h.inner
  case off => exact h.initialOffset
  case opt => exact h.options
  case mod => exact h.modules
  dsimp only
  rw [@loadSourceMap_layout o A l₁ l₂ k pre _ _ source sourceMap ho hfits hA ?inner ?off ?opt rfl hsourceMap ?len]
  case inner => exact h.inner
  case off => exact h.initialOffset
  case opt => exact h.options
  case len => exact h.sourcesLen
  refine ⟨⟨h.inner, h.initialOffset, h.options, ?_, ?_, ?_, ?_⟩, hanswer.symm⟩
  · exact congrArg (table o.digest A) (setReady_setReady_loadedBy L k)
  · dsimp only
    split
    · exact h.sourcesLen
    · exact .inr rfl
  · have hself : ((ds.locsBySpecifier.getD (locsOf ds.modules)).replace k .pendingOrAlreadyLoaded).lookup k =
        (lazyMetadata o.digest A L k).map fun _ => .pendingOrAlreadyLoaded := by
      rw [lookup_replace_self _ hmem, hmeta]
      rfl
    have hlocs := lazyMetadata_cons hself fun k' hk' => by rw [lookup_replace_of_ne _ _ hk', h.locs k']
    exact hlocs
  · have hloaded : ∀ k', (ds.loadedLocsBySpecifier.insert k
        (layoutLoc (fun kind => (sectionBytes o.digest kind l₁).length) source sourceMap)).lookup k' =
          lazyLoc o.digest A (k :: L) k' := by
      intro k'
      by_cases hk' : k' = k
      · rw [hk', AList.lookup_insert, lazyLoc_cons_self hmeta]
      · rw [AList.lookup_insert_ne hk', lazyLoc_cons_of_ne hk', h.loaded k']
    exact hloaded

/-- One lazy load keeps the state of a run, with its specifier added, and
answers as `lazyAnswer` says: the three ways `locs_by_specifier` can answer. -/
theorem LazyState.load (ho : o.Fixed) (hfits : Fits o.digest A) (h : LazyState o pre A L ds) (k : String) :
    LazyState o pre A (k :: L) (ds.readDataSectionBySpecifier k).1 ∧
      (ds.readDataSectionBySpecifier k).2 = lazyAnswer A k := by
  rcases hmeta : lazyMetadata o.digest A L k with _ | md
  · exact h.load_of_none hmeta
  · cases md with
    | hasLocation loc => exact h.load_of_hasLocation ho hfits hmeta
    | pendingOrAlreadyLoaded => exact h.load_of_pending hmeta

/-- Loads one after another keep the state of a run: the run lemma, by
induction on the specifiers loaded. -/
theorem LazyState.loadEach (ho : o.Fixed) (hfits : Fits o.digest A) (Ls : List String) :
    ∀ {L : List String} {ds : EszipDataSection}, LazyState o pre A L ds →
      LazyState o pre A (Ls.reverse ++ L) (ds.loadEach Ls) := by
  induction Ls with
  | nil => exact fun h => h
  | cons k Ls ih =>
      intro L ds h
      have hnext := ih (h.load ho hfits k).1
      rw [List.reverse_cons, List.append_assoc, List.singleton_append]
      exact hnext

/-- Lazy loads from a fresh data section, in any order and with repeats:
each slot of the modules loaded is `Ready` with its bytes and every other
slot is as the header left it, and the next load answers `Ok` for a module,
however often it was loaded before, and the `bail!` for a redirect or a
specifier the eszip lacks; no load panics. -/
theorem lazyLoads_run {o : Options} (ho : o.Fixed) {A : Archive} (hfits : Fits o.digest A)
    (pre : List UInt8) (Ls : List String) (k : String) :
    ((freshSection o pre A).loadEach Ls).modules = table o.digest A (loadedBy Ls) ∧
      (((freshSection o pre A).loadEach Ls).readDataSectionBySpecifier k).2 = lazyAnswer A k := by
  have h := (lazyState_fresh o pre A).loadEach ho hfits Ls
  have hflags : loadedBy (Ls.reverse ++ []) = loadedBy Ls := by
    funext kind k'
    simp [loadedBy]
  exact ⟨by rw [h.modules, hflags], (h.load ho hfits k).2⟩

/-- `main.ts` loaded twice and the redirect `alias.ts` once, then `dep.ts`
asked for. -/
theorem lazyLoads_run_threeModules :
    ((freshSection ⟨32, fun _ => List.replicate 32 0⟩ [] threeModules).loadEach
        ["main.ts", "alias.ts", "main.ts"]).modules =
      table (fun _ => List.replicate 32 0) threeModules (loadedBy ["main.ts", "alias.ts", "main.ts"]) ∧
    (((freshSection ⟨32, fun _ => List.replicate 32 0⟩ [] threeModules).loadEach
        ["main.ts", "alias.ts", "main.ts"]).readDataSectionBySpecifier "dep.ts").2 =
      lazyAnswer threeModules "dep.ts" :=
  lazyLoads_run (o := ⟨32, fun _ => List.replicate 32 0⟩) (fun _ => List.length_replicate)
    (by unfold Fits; exact ⟨by decide, by decide⟩) [] _ _

end Run

end EdgeRuntime.Eszip
