import EdgeRuntime.Eszip.Layout

/-!
# `read_data_section_all` over the layout

`read_data_section_all` builds two offset tables, one for the sources and
one for the source maps, from the slots still pending and from the locations
earlier lazy loads recorded.  Where both tables hold every non-empty slot of
their kind at the offset the encoder laid its section out, with the sections
still to be read marked so (`layoutEntries`), no two entries share an offset
(`layoutEntries_offsets`), each table agrees with the layout
(`agrees_layoutEntries`), and the two loops get through every section:
they read the sections to be read and skip the others (`walk_layout`,
`readSections_walk`).  `readDataSectionAll_layout` says so once for every
state of the data section; the sources loop seeks 32 bytes past a section
it skips, so that skipping a source takes 32-byte checksums.

On a data section no lazy load has touched every slot is pending, so both
tables are of that shape with every section to be read
(`offsetEntries_pending`).

## Main results

* `readDataSectionAll_eager`: on the data section of any eszip whose
  sections fit their `u32` lengths, with checksums of any fixed size (none,
  8 or 32 bytes), `read_data_section_all` leaves every slot `Ready` with its
  module's bytes.
-/

namespace EdgeRuntime.Eszip

open EdgeRuntime.Verified

/-! ## The offset tables of the layout -/

section Layout

variable (digest : List UInt8 → List UInt8) (kind : SlotKind) (need : String → Bool)

/-- The entries of the offset table of `kind` over the layout from `read`:
every non-empty slot of that kind, with `need` saying whether it is still to
be read. -/
def layoutEntries : Nat → List (Sigma fun _ : String => ArchiveModule) → List (Nat × OffsetEntry)
  | _, [] => []
  | read, ⟨k, a⟩ :: rest =>
      (if a.bytes kind = [] then [] else [(read, ⟨(a.bytes kind).length, k, need k⟩)]) ++
        layoutEntries (read + (chunk digest (a.bytes kind)).length) rest

variable {digest kind need}

theorem erase_empty_loaded (k : String) :
    (∅ : AList fun _ : String => DataLoc).erase k = ∅ :=
  rfl

/-- The offset table `read_data_section_all` builds from slots of `kind`
that are all pending, with nothing loaded before. -/
theorem offsetEntries_pending (ready : SlotKind → String → Bool) :
    ∀ (offset : SlotKind → Nat) (l : List (Sigma fun _ : String => ArchiveModule)),
      (∀ e ∈ l, ready kind e.1 = false) →
        offsetEntries kind (tableEntries digest ready offset l) ∅ =
          (layoutEntries digest kind (fun _ => true) (offset kind) l, ∅)
  | _, [], _ => rfl
  | offset, ⟨k, a⟩ :: rest, hready => by
      have ih := offsetEntries_pending ready (advance digest offset a) rest
        fun e he => hready e (List.mem_cons_of_mem _ he)
      have hk : ready kind k = false := hready ⟨k, a⟩ List.mem_cons_self
      rw [tableEntries, layoutEntries]
      cases a with
      | redirect target =>
          -- no slot: the `loaded_locs.remove` finds nothing
          cases kind <;>
            simp [offsetEntries, ArchiveModule.toV2, V2Module.slot?, ih, advance, ArchiveModule.bytes,
              erase_empty_loaded]
      | module source sourceMap =>
          have hslot := slot?_toV2_module (ready · k) offset source sourceMap kind
          by_cases hb : (ArchiveModule.module source sourceMap).bytes kind = []
          · -- an empty slot is `Ready`: nothing to read
            rw [hb, slotAt_nil] at hslot
            rw [offsetEntries, hslot, if_pos hb, erase_empty_loaded]
            simp [ih, advance, hb]
          · rw [hk, slotAt_false_of_ne_nil _ hb] at hslot
            rw [offsetEntries, hslot, if_neg hb]
            simp [ih, advance]

/-- Every entry lies at or after the offset the layout starts from, and no
two entries share an offset. -/
theorem layoutEntries_offsets :
    ∀ (read : Nat) (l : List (Sigma fun _ : String => ArchiveModule)),
      (∀ x ∈ layoutEntries digest kind need read l, read ≤ x.1) ∧
        ((layoutEntries digest kind need read l).map Prod.fst).Nodup
  | _, [] => ⟨fun _ h => absurd h List.not_mem_nil, List.nodup_nil⟩
  | read, ⟨k, a⟩ :: rest => by
      obtain ⟨hge, hnodup⟩ := layoutEntries_offsets (read + (chunk digest (a.bytes kind)).length) rest
      rw [layoutEntries]
      by_cases hb : a.bytes kind = []
      · rw [if_pos hb, List.nil_append, hb, chunk_nil, List.length_nil, Nat.add_zero]
        rw [hb, chunk_nil, List.length_nil, Nat.add_zero] at hge hnodup
        exact ⟨hge, hnodup⟩
      · -- a section takes at least one byte, so the rest lies past it
        have hpos : 0 < (chunk digest (a.bytes kind)).length := by
          rw [chunk_of_ne_nil hb, List.length_append]
          have := List.length_pos_iff.2 hb
          omega
        rw [if_neg hb, List.singleton_append]
        refine ⟨?_, ?_⟩
        · intro x hx
          rcases List.mem_cons.1 hx with rfl | hx
          · exact Nat.le_refl _
          · have := hge x hx
            omega
        · rw [List.map_cons, List.nodup_cons]
          refine ⟨fun hmem => ?_, hnodup⟩
          obtain ⟨x, hx, hxread⟩ := List.mem_map.1 hmem
          have := hge x hx
          omega

/-- A table that holds every entry of the layout agrees with it. -/
theorem agrees_of_lookup (tbl : AList fun _ : Nat => OffsetEntry) :
    ∀ (read : Nat) (l : List (Sigma fun _ : String => ArchiveModule)),
      (∀ x ∈ layoutEntries digest kind need read l, tbl.lookup x.1 = some x.2) →
        Agrees digest kind tbl (fun k => some (need k)) read l
  | _, [], _ => trivial
  | read, ⟨k, a⟩ :: rest, h => by
      rw [layoutEntries] at h
      refine ⟨fun hb => ?_, agrees_of_lookup tbl _ rest fun x hx => h x (List.mem_append_right _ hx)⟩
      have hmem : (read, (⟨(a.bytes kind).length, k, need k⟩ : OffsetEntry)) ∈
          (if a.bytes kind = [] then [] else [(read, ⟨(a.bytes kind).length, k, need k⟩)]) ++
            layoutEntries digest kind need (read + (chunk digest (a.bytes kind)).length) rest := by
        rw [if_neg hb]
        exact List.mem_append_left _ (List.mem_singleton_self _)
      exact h _ hmem

/-- The collected table of the layout agrees with it. -/
theorem agrees_layoutEntries (l : List (Sigma fun _ : String => ArchiveModule)) :
    Agrees digest kind (collect (layoutEntries digest kind need 0 l)) (fun k => some (need k)) 0 l := by
  apply agrees_of_lookup
  intro x hx
  have hnodup := (@layoutEntries_offsets digest kind need 0 l).2
  apply lookup_collect_of_unique hx
  intro y hy
  exact (List.inj_on_of_nodup_map hnodup hy hx rfl).symm ▸ rfl

end Layout

/-! ## A loop over the whole layout -/

section Walk

variable {digest : List UInt8 → List UInt8} {kind : SlotKind} {need : String → Bool}

/-- With every section of `kind` in the table, the loop gets through them
all: it sets the flag of every non-empty slot of `kind` still to be read,
keeps every flag set before, and changes no flag of the other kind. -/
theorem walk_layout :
    ∀ (ready : SlotKind → String → Bool) (read : Nat) (l : List (Sigma fun _ : String => ArchiveModule)),
      ∃ ready', walk digest kind (fun k => some (need k)) ready read l = .ok ready' ∧
        (∀ e ∈ l, e.2.bytes kind ≠ [] → need e.1 = true → ready' kind e.1 = true) ∧
        (∀ kind' k', ready kind' k' = true → ready' kind' k' = true) ∧
        (∀ kind' k', kind' ≠ kind → ready' kind' k' = ready kind' k')
  | ready, _, [] => ⟨ready, rfl, fun _ h => absurd h List.not_mem_nil, fun _ _ h => h, fun _ _ _ => rfl⟩
  | ready, read, ⟨k, a⟩ :: rest => by
      by_cases hb : a.bytes kind = []
      · obtain ⟨ready', hwalk, hset, hkeep, hother⟩ := walk_layout ready read rest
        refine ⟨ready', by rw [walk, if_pos hb]; exact hwalk, fun e he hbe => ?_, hkeep, hother⟩
        rcases List.mem_cons.1 he with rfl | he
        · exact absurd hb hbe
        · exact hset e he hbe
      · cases hk : need k with
        | false =>
            -- a section loaded before is skipped
            obtain ⟨ready', hwalk, hset, hkeep, hother⟩ :=
              walk_layout ready (read + (chunk digest (a.bytes kind)).length) rest
            refine ⟨ready', by rw [walk, if_neg hb]; simp only [hk]; exact hwalk, fun e he hbe hne => ?_,
              hkeep, hother⟩
            rcases List.mem_cons.1 he with he | he
            · rw [he] at hne
              rw [hk] at hne
              cases hne
            · exact hset e he hbe hne
        | true =>
            obtain ⟨ready', hwalk, hset, hkeep, hother⟩ :=
              walk_layout (setReady ready kind k) (read + (chunk digest (a.bytes kind)).length) rest
            refine ⟨ready', by rw [walk, if_neg hb]; simp only [hk]; exact hwalk, fun e he hbe hne => ?_,
              fun kind' k' h => hkeep kind' k' (by simp [setReady, h]), fun kind' k' hne => ?_⟩
            · rcases List.mem_cons.1 he with he | he
              · rw [he]
                exact hkeep kind k (by simp [setReady])
              · exact hset e he hbe hne
            · rw [hother kind' k' hne]
              simp [setReady, hne]

end Walk

/-! ## `read_data_section_all` -/

/-- Every flag a walk of each kind sets: the slots `read_data_section_all`
has loaded once both loops are done. -/
theorem table_allReady {digest : List UInt8 → List UInt8} {A : Archive}
    {ready : SlotKind → String → Bool}
    (h : ∀ kind, ∀ e ∈ A.entries, e.2.bytes kind ≠ [] → ready kind e.1 = true) :
    table digest A ready = table digest A fun _ _ => true :=
  table_congr fun k a hk kind hb => h kind ⟨k, a⟩ (AList.mem_lookup_iff.1 hk) hb

/-! ### The two loops over the data section -/

section Loops

variable {o : Options} {A : Archive}

theorem readU32_dataSection_sources (hfits : Fits o.digest A) (pre : List UInt8) :
    readU32 (pre ++ dataSection o.digest A) pre.length =
      some (sectionBytes o.digest .source A.entries).length := by
  have h := readU32_append pre (sectionBytes o.digest .source A.entries ++
    be32 (sectionBytes o.digest .sourceMap A.entries).length ++ sectionBytes o.digest .sourceMap A.entries) hfits.1
  simpa only [dataSection, List.append_assoc] using h

theorem readU32_dataSection_sourceMaps (hfits : Fits o.digest A) (pre : List UInt8) :
    readU32 (pre ++ dataSection o.digest A) (pre.length + 4 + (sectionBytes o.digest .source A.entries).length) =
      some (sectionBytes o.digest .sourceMap A.entries).length := by
  have h := readU32_append (pre ++ be32 (sectionBytes o.digest .source A.entries).length ++
    sectionBytes o.digest .source A.entries) (sectionBytes o.digest .sourceMap A.entries) hfits.2
  have hpos : (pre ++ be32 (sectionBytes o.digest .source A.entries).length ++
      sectionBytes o.digest .source A.entries).length =
        pre.length + 4 + (sectionBytes o.digest .source A.entries).length := by
    simp only [List.length_append, length_be32]
  rw [hpos] at h
  simpa only [dataSection, List.append_assoc] using h

/-- The sources loop over the data section, with the sources' table of the
layout: it reads the sources still to be read, skips the others, and ends
on the source maps' length. -/
theorem readSections_dataSection_source (ho : o.Fixed) {need : String → Bool}
    {ready ready' : SlotKind → String → Bool} (pre : List UInt8)
    (hseek : ∀ e ∈ A.entries, e.2.bytes .source ≠ [] → need e.1 = false → o.checksumSize = 32)
    (hpending : ∀ e ∈ A.entries, e.2.bytes .source ≠ [] → need e.1 = true → ready .source e.1 = false)
    (hwalk : walk o.digest .source (fun k => some (need k)) ready 0 A.entries = .ok ready') :
    readSections o (pre ++ dataSection o.digest A) .source (fun length => length + 32)
        (sectionBytes o.digest .source A.entries).length (collect (layoutEntries o.digest .source need 0 A.entries))
        0 (pre.length + 4) (table o.digest A ready) =
      .ok (table o.digest A ready', pre.length + 4 + (sectionBytes o.digest .source A.entries).length) := by
  have hbuf : pre ++ dataSection o.digest A =
      (pre ++ be32 (sectionBytes o.digest .source A.entries).length) ++ sectionBytes o.digest .source A.entries ++
        (be32 (sectionBytes o.digest .sourceMap A.entries).length ++ sectionBytes o.digest .sourceMap A.entries) := by
    simp only [dataSection, List.append_assoc]
  -- the sources loop seeks 32 bytes past a source it skips
  have h := @readSections_walk o ho A .source (fun length => length + 32) (fun k => some (need k))
    (pre ++ be32 (sectionBytes o.digest .source A.entries).length)
    (be32 (sectionBytes o.digest .sourceMap A.entries).length ++ sectionBytes o.digest .sourceMap A.entries)
    (fun k a hk hb hw => by rw [hseek ⟨k, a⟩ (AList.mem_lookup_iff.1 hk) hb (Option.some.inj hw)])
    A.entries [] ready _ (List.nil_append _).symm
    (fun e he hb hw => hpending e he hb (Option.some.inj hw)) (agrees_layoutEntries A.entries)
  have hnil : (sectionBytes o.digest .source []).length = 0 := rfl
  simp only [hnil, Nat.add_zero, hwalk, List.length_append, length_be32] at h
  rw [← hbuf] at h
  exact h

/-- The source-map loop over the data section, with the source maps' table
of the layout: it reads the source maps still to be read and skips the
others. -/
theorem readSections_dataSection_sourceMap (ho : o.Fixed) {need : String → Bool}
    {ready ready' : SlotKind → String → Bool} (pre : List UInt8)
    (hpending : ∀ e ∈ A.entries, e.2.bytes .sourceMap ≠ [] → need e.1 = true → ready .sourceMap e.1 = false)
    (hwalk : walk o.digest .sourceMap (fun k => some (need k)) ready 0 A.entries = .ok ready') :
    readSections o (pre ++ dataSection o.digest A) .sourceMap (fun length => length + o.checksumSize)
        (sectionBytes o.digest .sourceMap A.entries).length
        (collect (layoutEntries o.digest .sourceMap need 0 A.entries)) 0
        (pre.length + 4 + (sectionBytes o.digest .source A.entries).length + 4) (table o.digest A ready) =
      .ok (table o.digest A ready', pre.length + 4 + (sectionBytes o.digest .source A.entries).length + 4 +
        (sectionBytes o.digest .sourceMap A.entries).length) := by
  have hbuf : pre ++ dataSection o.digest A =
      (pre ++ be32 (sectionBytes o.digest .source A.entries).length ++ sectionBytes o.digest .source A.entries ++
        be32 (sectionBytes o.digest .sourceMap A.entries).length) ++ sectionBytes o.digest .sourceMap A.entries ++
        [] := by
    simp only [dataSection, List.append_assoc, List.append_nil]
  have h := @readSections_walk o ho A .sourceMap (fun length => length + o.checksumSize)
    (fun k => some (need k)) (pre ++ be32 (sectionBytes o.digest .source A.entries).length ++
      sectionBytes o.digest .source A.entries ++ be32 (sectionBytes o.digest .sourceMap A.entries).length) []
    (fun _ _ _ _ _ => rfl) A.entries [] ready _ (List.nil_append _).symm
    (fun e he hb hw => hpending e he hb (Option.some.inj hw)) (agrees_layoutEntries A.entries)
  have hnil : (sectionBytes o.digest .sourceMap []).length = 0 := rfl
  simp only [hnil, Nat.add_zero, hwalk, List.length_append, length_be32] at h
  rw [← hbuf] at h
  exact h

end Loops

/-- The spec of `read_data_section_all` over the layout.  With offset
tables that hold every non-empty slot of their kind, `need` saying which
are still to be read and exactly those not loaded, both loops read what is
to be read, skip the rest, and leave every slot `Ready`.  The sources loop
seeks 32 bytes past a source it skips, so skipping one takes 32-byte
checksums. -/
theorem readDataSectionAll_layout {o : Options} (ho : o.Fixed) {A : Archive} (hfits : Fits o.digest A)
    {pre : List UInt8} {ds : EszipDataSection} {ready : SlotKind → String → Bool} (need : String → Bool)
    (hinner : ds.inner = pre ++ dataSection o.digest A) (hoff : ds.initialOffset = pre.length)
    (hopt : ds.options = o) (hmod : ds.modules = table o.digest A ready)
    (hsourceTable : (offsetEntries .source ds.modules.entries ds.loadedLocsBySpecifier).1 =
      layoutEntries o.digest .source need 0 A.entries)
    (hsourceMapTable : (offsetEntries .sourceMap ds.modules.entries
        (offsetEntries .source ds.modules.entries ds.loadedLocsBySpecifier).2).1 =
      layoutEntries o.digest .sourceMap need 0 A.entries)
    (hneed : ∀ kind, ∀ e ∈ A.entries, e.2.bytes kind ≠ [] → (need e.1 = true ↔ ready kind e.1 = false))
    (hseek : ∀ e ∈ A.entries, e.2.bytes .source ≠ [] → need e.1 = false → o.checksumSize = 32) :
    readDataSectionAll ds = .ok (table o.digest A fun _ _ => true) := by
  -- the sources loop reads the sources to be read and changes no source-map flag
  obtain ⟨ready₁, hwalk₁, hset₁, hkeep₁, hother₁⟩ := @walk_layout o.digest .source need ready 0 A.entries
  have hsources := readSections_dataSection_source ho pre hseek
    (fun e he hb hw => (hneed .source e he hb).1 hw) hwalk₁
  -- the source-map loop then reads the source maps to be read
  obtain ⟨ready₂, hwalk₂, hset₂, hkeep₂, -⟩ := @walk_layout o.digest .sourceMap need ready₁ 0 A.entries
  have hsourceMaps := readSections_dataSection_sourceMap ho pre (fun e he hb hw => by
    rw [hother₁ .sourceMap e.1 (by decide)]
    exact (hneed .sourceMap e he hb).1 hw) hwalk₂
  -- a slot not read by either loop was loaded before
  have hall : table o.digest A ready₂ = table o.digest A fun _ _ => true := by
    refine table_allReady fun kind e he hb => ?_
    cases hk : need e.1 with
    | true =>
        cases kind with
        | source => exact hkeep₂ .source e.1 (hset₁ e he hb hk)
        | sourceMap => exact hset₂ e he hb hk
    | false =>
        have hloaded : ready kind e.1 = true := by
          rw [← Bool.not_eq_false]
          exact fun h => absurd ((hneed kind e he hb).2 h) (by rw [hk]; decide)
        exact hkeep₂ kind e.1 (hkeep₁ kind e.1 hloaded)
  simp only [readDataSectionAll, hsourceTable, hsourceMapTable]
  rw [hinner, hoff, hopt, hmod, readU32_dataSection_sources hfits pre]
  simp only
  rw [hsources]
  simp only [readU32_dataSection_sourceMaps hfits pre]
  rw [hsourceMaps, hall]
  rfl

/-- An eager `read_data_section_all` on a data section no lazy load has
touched loads every slot with the bytes the encoder wrote. -/
theorem readDataSectionAll_eager {o : Options} (ho : o.Fixed) {A : Archive} (hfits : Fits o.digest A)
    (pre : List UInt8) :
    readDataSectionAll (EszipDataSection.new (pre ++ dataSection o.digest A) pre.length
        (table o.digest A fun _ _ => false) o) =
      .ok (table o.digest A fun _ _ => true) := by
  -- both offset tables hold every non-empty slot of their kind, all to be read
  have hsourceTable : offsetEntries .source (table o.digest A fun _ _ => false).entries ∅ =
      (layoutEntries o.digest .source (fun _ => true) 0 A.entries, ∅) :=
    offsetEntries_pending _ (fun _ => 0) A.entries fun _ _ => rfl
  have hsourceMapTable : offsetEntries .sourceMap (table o.digest A fun _ _ => false).entries ∅ =
      (layoutEntries o.digest .sourceMap (fun _ => true) 0 A.entries, ∅) :=
    offsetEntries_pending _ (fun _ => 0) A.entries fun _ _ => rfl
  apply readDataSectionAll_layout ho hfits (fun _ => true) rfl rfl rfl rfl
  · exact congrArg Prod.fst hsourceTable
  · show (offsetEntries .sourceMap (table o.digest A fun _ _ => false).entries
      (offsetEntries .source (table o.digest A fun _ _ => false).entries ∅).2).1 = _
    rw [hsourceTable, hsourceMapTable]
  · exact fun _ _ _ _ => ⟨fun _ => rfl, fun _ => rfl⟩
  · exact fun _ _ _ h => by simp at h

/-- Three modules: `main.ts` with a source and a source map, the redirect
`alias.ts`, and `dep.ts` with an empty source map. -/
def threeModules : Archive :=
  ⟨[⟨"main.ts", .module [0x31] [0x7B, 0x7D]⟩, ⟨"alias.ts", .redirect "main.ts"⟩,
    ⟨"dep.ts", .module [0x32] []⟩], by simp [List.NodupKeys]⟩

/-- The three modules with 32-byte checksums that are all zeros. -/
theorem readDataSectionAll_eager_threeModules :
    readDataSectionAll (EszipDataSection.new (dataSection (fun _ => List.replicate 32 0) threeModules) 0
        (table (fun _ => List.replicate 32 0) threeModules fun _ _ => false) ⟨32, fun _ => List.replicate 32 0⟩) =
      .ok (table (fun _ => List.replicate 32 0) threeModules fun _ _ => true) :=
  readDataSectionAll_eager (o := ⟨32, fun _ => List.replicate 32 0⟩) (fun _ => List.length_replicate)
    (by unfold Fits; exact ⟨by decide, by decide⟩) []

end EdgeRuntime.Eszip
