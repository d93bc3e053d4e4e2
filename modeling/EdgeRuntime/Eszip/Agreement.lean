import EdgeRuntime.Eszip.LazyRun

/-!
# Where lazy and eager loading agree

After lazy loads, `read_data_section_all` builds each offset table from the
slots still pending and from `loaded_locs_by_specifier`: a section a lazy
load read enters with the location the load recorded, to be skipped.  Two
things can then go wrong.  The sources' pass takes every loaded module out of
`loaded_locs`, so the source maps' table lacks every source map a lazy load
read; and a loaded module with an empty source and a source map enters the
sources' table as a section of length 0 at offset 0.  Where no loaded module
has a source map, neither happens: what `loaded_locs` holds along the layout
(`LoadedAt`) makes both tables the layout's, with the sections loaded before
marked to be skipped (`offsetEntries_loadedBy`).  With 32-byte checksums,
where the sources loop's seek past a skipped source is right,
`read_data_section_all` then ends as the eager one does.

## Main results

* `readDataSectionAll_after_lazyLoads`: lazy loads of modules without
  source maps, in any order and with repeats, followed by
  `read_data_section_all`, leave every slot `Ready` with its module's bytes,
  as `read_data_section_all` alone does.
-/

namespace EdgeRuntime.Eszip

open EdgeRuntime.Verified

/-! ## What a pass needs of `loaded_locs` -/

section Tables

variable (digest : List UInt8 → List UInt8) (kind : SlotKind) (L : List String)

/-- What the pass of `read_data_section_all` over the slots of `kind` needs
of `loaded_locs`, along the modules laid out from `offset`: the location of
the section of a module loaded with a non-empty slot of that kind, and
nothing for any other module. -/
def LoadedAt (loaded : AList fun _ : String => DataLoc) :
    (SlotKind → Nat) → List (Sigma fun _ : String => ArchiveModule) → Prop
  | _, [] => True
  | offset, ⟨k, a⟩ :: rest =>
      (if k ∈ L ∧ a.bytes kind ≠ [] then
        ∃ loc, loaded.lookup k = some loc ∧ loc.range kind = (offset kind, (a.bytes kind).length)
      else loaded.lookup k = none) ∧
        LoadedAt loaded (advance digest offset a) rest

variable {digest kind L}

/-- Removing a module of the layout from `loaded_locs` keeps what the
modules after it need. -/
theorem loadedAt_erase {loaded : AList fun _ : String => DataLoc} {k : String} :
    ∀ {offset : SlotKind → Nat} {l : List (Sigma fun _ : String => ArchiveModule)}, k ∉ l.keys →
      LoadedAt digest kind L loaded offset l → LoadedAt digest kind L (loaded.erase k) offset l
  | _, [], _, _ => trivial
  | _, ⟨k', a⟩ :: rest, hk, ⟨hhead, hrest⟩ => by
      rw [List.keys_cons, List.mem_cons, not_or] at hk
      refine ⟨?_, loadedAt_erase hk.2 hrest⟩
      rw [AList.lookup_erase_ne (Ne.symm hk.1)]
      exact hhead

/-- A `loaded_locs` with nothing for the modules of the layout serves a pass
over slots no loaded module has. -/
theorem loadedAt_of_lookup_eq_none {loaded : AList fun _ : String => DataLoc}
    (hnone : ∀ k, loaded.lookup k = none) :
    ∀ {offset : SlotKind → Nat} {l : List (Sigma fun _ : String => ArchiveModule)},
      (∀ e ∈ l, e.1 ∈ L → e.2.bytes kind = []) → LoadedAt digest kind L loaded offset l
  | _, [], _ => trivial
  | _, ⟨k, a⟩ :: rest, hL => by
      refine ⟨?_, loadedAt_of_lookup_eq_none hnone fun e he => hL e (List.mem_cons_of_mem _ he)⟩
      rw [if_neg fun h => h.2 (hL ⟨k, a⟩ List.mem_cons_self h.1)]
      exact hnone k

/-- The offset table of `kind` after lazy loads of `L`: every non-empty
slot of that kind at the offset of its section, the slots loaded before to
be skipped.  By induction on the modules, with the offsets and
`loaded_locs` generalised. -/
theorem offsetEntries_loadedBy (l : List (Sigma fun _ : String => ArchiveModule)) :
    ∀ (offset : SlotKind → Nat) (loaded : AList fun _ : String => DataLoc), l.keys.Nodup →
      LoadedAt digest kind L loaded offset l →
        (offsetEntries kind (tableEntries digest (loadedBy L) offset l) loaded).1 =
          layoutEntries digest kind (fun k => !decide (k ∈ L)) (offset kind) l := by
  induction l with
  | nil => intro _ _ _ _; rfl
  | cons e rest ih =>
      obtain ⟨k, a⟩ := e
      intro offset loaded hnodup hloaded
      obtain ⟨hhead, hrest⟩ := hloaded
      rw [List.keys_cons, List.nodup_cons] at hnodup
      have hnext := ih (advance digest offset a)
      rw [tableEntries, layoutEntries]
      cases a with
      | redirect target =>
          -- no slot, and nothing recorded: the removal finds nothing
          have hslot : (V2Module.redirect target).slot? kind = none := by cases kind <;> rfl
          have hnone : loaded.lookup k = none := by
            rw [if_neg fun h => h.2 (by cases kind <;> rfl)] at hhead
            exact hhead
          have hbytes : (ArchiveModule.redirect target).bytes kind = [] := by cases kind <;> rfl
          rw [offsetEntries, ArchiveModule.toV2, hslot]
          simp only [hnone, Option.toList_none, List.map_nil, List.nil_append, if_pos hbytes]
          exact hnext _ hnodup.2 (loadedAt_erase hnodup.1 hrest)
      | module source sourceMap =>
          have hslot := slot?_toV2_module (loadedBy L · k) offset source sourceMap kind
          by_cases hb : (ArchiveModule.module source sourceMap).bytes kind = []
          · -- an empty slot is `Ready`, and nothing is recorded for it
            have hnone : loaded.lookup k = none := by
              rw [if_neg fun h => h.2 hb] at hhead
              exact hhead
            rw [hb, slotAt_nil] at hslot
            rw [offsetEntries, hslot]
            simp only [hnone, Option.toList_none, List.map_nil, List.nil_append, if_pos hb]
            exact hnext _ hnodup.2 (loadedAt_erase hnodup.1 hrest)
          · by_cases hk : k ∈ L
            · -- a slot loaded before: its recorded location, to be skipped
              rw [if_pos ⟨hk, hb⟩] at hhead
              obtain ⟨loc, hloc, hrange⟩ := hhead
              have hflag : loadedBy L kind k = true := by simp [loadedBy, hk]
              rw [hflag, slotAt_true] at hslot
              rw [offsetEntries, hslot]
              simp only [hloc, Option.toList_some, List.map_cons, List.map_nil, hrange, if_neg hb,
                List.singleton_append, hk, decide_true, Bool.not_true]
              rw [hnext _ hnodup.2 (loadedAt_erase hnodup.1 hrest)]
              rfl
            · -- a pending slot, to be read
              have hflag : loadedBy L kind k = false := by simp [loadedBy, hk]
              simp only [hflag, slotAt_false_of_ne_nil _ hb] at hslot
              rw [offsetEntries, hslot]
              simp only [if_neg hb, List.singleton_append, hk, decide_false, Bool.not_false]
              rw [if_neg fun h => hk h.1] at hhead
              rw [hnext _ hnodup.2 hrest]
              rfl

/-- The removals of a pass keep a specifier out of `loaded_locs` that was
not in it. -/
theorem offsetEntries_snd_lookup_of_none {k : String} (E : List (Sigma fun _ : String => V2Module)) :
    ∀ loaded : AList fun _ : String => DataLoc, loaded.lookup k = none →
      (offsetEntries kind E loaded).2.lookup k = none := by
  induction E with
  | nil => exact fun _ h => h
  | cons e rest ih =>
      obtain ⟨specifier, m⟩ := e
      intro loaded h
      rw [offsetEntries]
      split
      · exact ih loaded h
      · apply ih
        by_cases hk : k = specifier
        · rw [hk]
          exact AList.lookup_erase _ _
        · rw [AList.lookup_erase_ne hk]
          exact h

/-- A pass takes every loaded module of the layout out of `loaded_locs`:
none of its slots is pending. -/
theorem offsetEntries_snd_lookup_of_loaded {k : String} (hk : k ∈ L)
    (l : List (Sigma fun _ : String => ArchiveModule)) :
    ∀ (offset : SlotKind → Nat) (loaded : AList fun _ : String => DataLoc), k ∈ l.keys →
      (offsetEntries kind (tableEntries digest (loadedBy L) offset l) loaded).2.lookup k = none := by
  induction l with
  | nil => exact fun _ _ h => absurd h List.not_mem_nil
  | cons e rest ih =>
      obtain ⟨k', a⟩ := e
      intro offset loaded hmem
      rw [List.keys_cons, List.mem_cons] at hmem
      rw [tableEntries, offsetEntries]
      split
      · rename_i pendingOffset pendingLength hpending
        -- the slot of a loaded module is `Ready`, or there is none
        have hne : k ≠ k' := by
          rintro rfl
          cases a with
          | redirect target => cases kind <;> cases hpending
          | module source sourceMap =>
              rw [slot?_toV2_module] at hpending
              simp [loadedBy, hk, slotAt_true] at hpending
        exact ih _ _ (hmem.resolve_left hne)
      · by_cases hkk : k = k'
        · rw [← hkk]
          exact offsetEntries_snd_lookup_of_none _ _ (AList.lookup_erase _ _)
        · exact ih _ _ (hmem.resolve_left hkk)

end Tables

/-! ## `loaded_locs` after lazy loads -/

/-- The locations lazy loads of modules without source maps record are what
the sources' pass needs.  By induction on the modules after `l₁`. -/
theorem loadedAt_source {digest : List UInt8 → List UInt8} {A : Archive} {L : List String}
    {loaded : AList fun _ : String => DataLoc} (hloaded : ∀ k, loaded.lookup k = lazyLoc digest A L k)
    (hmaps : ∀ k ∈ L, ∀ source sourceMap, A.lookup k = some (.module source sourceMap) → sourceMap = []) :
    ∀ (l₂ l₁ : List (Sigma fun _ : String => ArchiveModule)), A.entries = l₁ ++ l₂ →
      LoadedAt digest .source L loaded (fun kind => (sectionBytes digest kind l₁).length) l₂ := by
  intro l₂
  induction l₂ with
  | nil => exact fun _ _ => trivial
  | cons e rest ih =>
      obtain ⟨k, a⟩ := e
      intro l₁ hA
      have hfresh := @lookup_locsOf_fresh digest A l₁ rest k a hA
      have hoffset : advance digest (fun kind => (sectionBytes digest kind l₁).length) a =
          fun kind => (sectionBytes digest kind (l₁ ++ [⟨k, a⟩])).length := by
        funext kind
        simp only [advance, sectionBytes_append, sectionBytes, List.append_nil, List.length_append]
      refine ⟨?_, by rw [hoffset]; exact ih _ (by rw [hA, List.append_assoc, List.singleton_append])⟩
      rw [hloaded k]
      by_cases hk : k ∈ L
      · cases a with
        | redirect target =>
            rw [if_neg fun h => h.2 rfl, lazyLoc, if_pos hk, hfresh]
            rfl
        | module source sourceMap =>
            -- a loaded module has no source map, so it has a location only with a source
            have hm : sourceMap = [] := hmaps k hk source sourceMap (lookup_of_entries_eq hA)
            subst hm
            rw [lazyLoc, if_pos hk, hfresh, metadataOf_fresh]
            by_cases hs : source = []
            · subst hs
              rw [if_neg fun h => h.2 rfl]
              rfl
            · have hb : (ArchiveModule.module source []).bytes .source ≠ [] := hs
              rw [if_pos ⟨hk, hb⟩, if_neg fun h => hs h.1]
              refine ⟨_, rfl, ?_⟩
              simp [layoutLoc, encodeLoc, DataLoc.range, hs, ArchiveModule.bytes]
      · rw [if_neg fun h => hk h.1, lazyLoc, if_neg hk]

/-! ## Lazy loads, then `read_data_section_all` -/

/-- Lazy loads from a fresh data section of modules without source maps, in
any order and with repeats, followed by `read_data_section_all`, with
32-byte checksums: every slot ends `Ready` with its module's bytes, as with
`read_data_section_all` alone. -/
theorem readDataSectionAll_after_lazyLoads {o : Options} (ho : o.Fixed) (h32 : o.checksumSize = 32)
    {A : Archive} (hfits : Fits o.digest A) (pre : List UInt8) (Ls : List String)
    (hmaps : ∀ k ∈ Ls, ∀ source sourceMap, A.lookup k = some (.module source sourceMap) → sourceMap = []) :
    readDataSectionAll ((freshSection o pre A).loadEach Ls) = .ok (table o.digest A fun _ _ => true) := by
  have h := (lazyState_fresh o pre A).loadEach ho hfits Ls
  have hmem : ∀ k, k ∈ Ls.reverse ++ [] ↔ k ∈ Ls := by simp
  have hmaps' : ∀ k ∈ Ls.reverse ++ [], ∀ source sourceMap,
      A.lookup k = some (.module source sourceMap) → sourceMap = [] :=
    fun k hk => hmaps k ((hmem k).1 hk)
  have hnodup : A.entries.keys.Nodup := A.nodupKeys
  -- the sources' table, and what its pass leaves of `loaded_locs`
  have hsources := offsetEntries_loadedBy A.entries (fun _ => 0) _ hnodup
    (loadedAt_source h.loaded hmaps' A.entries [] rfl)
  have hnone : ∀ k, (offsetEntries .source (tableEntries o.digest (loadedBy (Ls.reverse ++ [])) (fun _ => 0)
      A.entries) ((freshSection o pre A).loadEach Ls).loadedLocsBySpecifier).2.lookup k = none := by
    intro k
    by_cases hk : k ∈ Ls.reverse ++ [] ∧ k ∈ A.entries.keys
    · exact offsetEntries_snd_lookup_of_loaded hk.1 _ _ _ hk.2
    · apply offsetEntries_snd_lookup_of_none
      rw [h.loaded k, lazyLoc]
      split
      · rename_i hkL
        -- a specifier loaded but not in the eszip has nothing recorded
        rw [lookup_locsOf, lookup_table_of_lookup_eq_none
          (AList.lookup_eq_none.2 fun hA => hk ⟨hkL, AList.mem_keys.1 hA⟩)]
        rfl
      · rfl
  -- the source maps' table: no loaded module has a source map
  have hsourceMaps := @offsetEntries_loadedBy o.digest .sourceMap (Ls.reverse ++ []) A.entries (fun _ => 0) _
    hnodup (loadedAt_of_lookup_eq_none hnone fun e he hk => by
      obtain ⟨k, a⟩ := e
      cases a with
      | redirect target => rfl
      | module source sourceMap =>
          exact hmaps' k hk source sourceMap (AList.mem_lookup_iff.2 he))
  apply readDataSectionAll_layout ho hfits (fun k => !decide (k ∈ Ls.reverse ++ [])) h.inner
    h.initialOffset h.options h.modules
  · rw [h.modules]
    exact hsources
  · rw [h.modules]
    exact hsourceMaps
  · intro kind e _ _
    simp [loadedBy]
  · exact fun _ _ _ _ => h32

/-- `dep.ts` loaded twice and the redirect `alias.ts` once, then everything
read. -/
theorem readDataSectionAll_after_lazyLoads_threeModules :
    readDataSectionAll ((freshSection ⟨32, fun _ => List.replicate 32 0⟩ [] threeModules).loadEach
        ["dep.ts", "alias.ts", "dep.ts"]) =
      .ok (table (fun _ => List.replicate 32 0) threeModules fun _ _ => true) :=
  readDataSectionAll_after_lazyLoads (o := ⟨32, fun _ => List.replicate 32 0⟩) (fun _ => List.length_replicate)
    rfl (by unfold Fits; exact ⟨by decide, by decide⟩) [] _ (by
      intro k hk source sourceMap hlookup
      simp only [List.mem_cons, List.not_mem_nil, or_false] at hk
      rcases hk with rfl | rfl | rfl <;>
        simp [threeModules, AList.lookup, List.dlookup] at hlookup <;> exact hlookup.2)

end EdgeRuntime.Eszip
