import EdgeRuntime.Vfs.Lookup

/-!
# A file the builder adds is what the lookup finds

The builder and the lookup read the tree of entries alike, as a map from
paths to entries: a path names the entry reached through directories, each
component found by its name (`entryAt`).  On a tree whose levels are sorted,
`binary_search_by` finds the entry `find?` does, so the walk of
`find_entry` is `entryAt` (`walk_of_entryAt`, `findEntry_of_entryAt`).  The
walk of `add_dir` reaches the directory the path names, or makes the missing
ones empty (`entryAt_walkDir`), and `add_file` puts the file there unless the
name is taken (`entryAt_addFile`).

`load_npm_vfs` (crates/sb_fs/lib.rs) serves the tree an eszip stores under
the runtime's own root path, so a lookup there names the file by the same
path relative to the root as the build did.

## Main results

* `findEntry_addFile`: after `add_file` of a path no entry had, on a builder
  whose levels are sorted, `find_entry` of that path below any root
  `load_npm_vfs` is given returns the new file, with the offset and the key
  `add_file` gave its contents.
-/

namespace EdgeRuntime.Vfs

open EdgeRuntime.Verified.SortedSearch EdgeRuntime.Verified.Fallible

/-! ## The tree as a map from paths to entries -/

/-- The entry at a path relative to a level, reached through directories,
each component found by its name. -/
def entryAt : List VfsEntry → List String → Option VfsEntry
  | _, [] => none
  | entries, name :: rest =>
      match rest, entries.find? (fun e => e.name = name) with
      | [], found => found
      | _ :: _, some (.dir _ sub) => entryAt sub rest
      | _ :: _, _ => none

theorem entryAt_singleton (entries : List VfsEntry) (name : String) :
    entryAt entries [name] = entries.find? (fun e => e.name = name) := by
  rw [entryAt]

theorem entryAt_cons_dir {entries sub : List VfsEntry} {name dirName : String} {rest : List String}
    (hrest : rest ≠ []) (hfind : entries.find? (fun e => e.name = name) = some (.dir dirName sub)) :
    entryAt entries (name :: rest) = entryAt sub rest := by
  obtain ⟨c, rest', rfl⟩ := List.exists_cons_of_ne_nil hrest
  exact entryAt.eq_3 _ _ _ _ _ _ hfind

theorem entryAt_cons_of_not_dir {entries : List VfsEntry} {name : String} {rest : List String}
    (hrest : rest ≠ [])
    (hfind : ∀ dirName sub, entries.find? (fun e => e.name = name) ≠ some (.dir dirName sub)) :
    entryAt entries (name :: rest) = none := by
  obtain ⟨c, rest', rfl⟩ := List.exists_cons_of_ne_nil hrest
  exact entryAt.eq_4 _ _ _ _ hfind

theorem entryAt_cons_of_find?_eq_none {entries : List VfsEntry} {name : String} {rest : List String}
    (hfind : entries.find? (fun e => e.name = name) = none) : entryAt entries (name :: rest) = none := by
  cases rest with
  | nil => rw [entryAt_singleton, hfind]
  | cons c rest' => exact entryAt_cons_of_not_dir (List.cons_ne_nil _ _) fun _ _ => by simp [hfind]

theorem entryAt_nil_entries (path : List String) : entryAt [] path = none := by
  cases path with
  | nil => rfl
  | cons name rest => exact entryAt_cons_of_find?_eq_none rfl

/-- An entry below the first component is in a directory found by it. -/
theorem exists_dir_of_entryAt_cons {entries : List VfsEntry} {name : String} {rest : List String}
    {e : VfsEntry} (hrest : rest ≠ []) (he : entryAt entries (name :: rest) = some e) :
    ∃ dirName sub, entries.find? (fun x => x.name = name) = some (.dir dirName sub) ∧
      entryAt sub rest = some e := by
  by_cases hdir : ∃ dirName sub, entries.find? (fun x => x.name = name) = some (.dir dirName sub)
  · obtain ⟨dirName, sub, hfind⟩ := hdir
    exact ⟨dirName, sub, hfind, by rwa [entryAt_cons_dir hrest hfind] at he⟩
  · push Not at hdir
    rw [entryAt_cons_of_not_dir hrest hdir] at he
    cases he

/-! ## Searching a sorted level -/

namespace Sorted

variable {entries : List VfsEntry}

/-- On a sorted level, the search finds the entry `find?` finds. -/
theorem searchName_of_find? (h : Sorted entries) {name : String} {e : VfsEntry}
    (hfind : entries.find? (fun e => e.name = name) = some e) :
    ∃ i, searchName entries name = .ok i ∧ entries[i]? = some e := by
  have hmem := List.mem_of_find?_eq_some hfind
  have hname : e.name = name := by simpa using List.find?_some hfind
  exact @binarySearchBy_eq_ok_of_mem VfsEntry String _ VfsEntry.name name entries h.pairwise e hmem hname

/-- A search that fails on a sorted level means no entry has the name. -/
theorem find?_eq_none_of_searchName (h : Sorted entries) {name : String} {i : Nat}
    (hsearch : searchName entries name = .error i) : entries.find? (fun e => e.name = name) = none := by
  have hb := (@binarySearchBy_error VfsEntry String _ VfsEntry.name name entries h.pairwise i hsearch).2
  rw [List.find?_eq_none]
  intro x hx
  simpa using hb.not_mem hx

/-- On a sorted level, an entry put at `i` in place of one of the same name
is what `find?` by that name returns: the names before `i` are smaller. -/
theorem find?_set (h : Sorted entries) {i : Nat} {e e' : VfsEntry} (hi : entries[i]? = some e)
    (hname : e'.name = e.name) : (entries.set i e').find? (fun x => x.name = e.name) = some e' := by
  obtain ⟨hlt, -⟩ := List.getElem?_eq_some_iff.1 hi
  rw [List.find?_eq_some_iff_getElem]
  refine ⟨by simp [hname], i, by simpa using hlt, by simp, fun j hj => ?_⟩
  have hless := key_lt_of_pairwise h.pairwise hj (List.getElem?_eq_getElem (Nat.lt_trans hj hlt)) hi
  simpa [List.getElem_set, Nat.ne_of_gt hj] using ne_of_lt hless

theorem find?_of_getElem? (h : Sorted entries) {i : Nat} {e : VfsEntry} (hi : entries[i]? = some e) :
    entries.find? (fun x => x.name = e.name) = some e := by
  have hfind := h.find?_set hi (rfl : e.name = e.name)
  obtain ⟨hlt, hget⟩ := List.getElem?_eq_some_iff.1 hi
  rw [← hget, List.set_getElem_self, hget] at hfind
  exact hfind

/-- An entry inserted where the search of its name failed is what `find?`
by that name returns. -/
theorem find?_insertIdx (h : Sorted entries) {name : String} {i : Nat}
    (hsearch : searchName entries name = .error i) {e : VfsEntry} (hname : e.name = name)
    (he : SortedBelow e) : (entries.insertIdx i e).find? (fun x => x.name = name) = some e := by
  have hi := (@binarySearchBy_error VfsEntry String _ VfsEntry.name name entries h.pairwise i
    hsearch).1
  have hget : (entries.insertIdx i e)[i]? = some e := by
    rw [List.getElem?_insertIdx_self, if_pos hi]
  have hfind := (h.insertIdx hsearch hname he).find?_of_getElem? hget
  rw [hname] at hfind
  exact hfind

end Sorted

/-! ## The walk of `add_dir` -/

/-- What `ensureDir` leaves at the index it returns on a sorted level: the
entry `find?` finds, or the directory it made where there was none. -/
theorem getElem?_ensureDir {entries : List VfsEntry} (h : Sorted entries) (name : String) :
    ∃ e, (ensureDir entries name).1[(ensureDir entries name).2]? = some e ∧ e.name = name ∧
      (entries.find? (fun x => x.name = name) = some e ∨
        (entries.find? (fun x => x.name = name) = none ∧ e = .dir name [])) := by
  unfold ensureDir
  cases hsearch : searchName entries name with
  | ok i =>
      obtain ⟨e, he, hcmp⟩ := binarySearchBy_ok hsearch
      have hname : e.name = name := compare_eq_iff_eq.1 hcmp
      refine ⟨e, he, hname, .inl ?_⟩
      rw [← hname]
      exact h.find?_of_getElem? he
  | error i =>
      have hi := (@binarySearchBy_error VfsEntry String _ VfsEntry.name name entries h.pairwise i
        hsearch).1
      refine ⟨.dir name [], ?_, rfl, .inr ⟨h.find?_eq_none_of_searchName hsearch, rfl⟩⟩
      simp [List.getElem?_insertIdx_self, hi]

section EnsureDir

variable {entries sub : List VfsEntry} {name dirName : String}

/-- Below the directory `ensureDir` finds or makes, the paths of a sorted
level read as in it: the directory found, or a new empty one where nothing
was. -/
theorem entryAt_cons_of_ensureDir (h : Sorted entries)
    (hget : (ensureDir entries name).1[(ensureDir entries name).2]? = some (.dir dirName sub))
    {p : List String} (hp : p ≠ []) : entryAt entries (name :: p) = entryAt sub p := by
  obtain ⟨e, he, -, hfound | ⟨hnone, rfl⟩⟩ := getElem?_ensureDir h name
  · rw [hget] at he
    cases he
    exact entryAt_cons_dir hp hfound
  · rw [hget] at he
    cases he
    rw [entryAt_cons_of_find?_eq_none hnone, entryAt_nil_entries]

/-- Putting the directory back with other entries makes the paths below it
read those. -/
theorem entryAt_set_of_ensureDir (h : Sorted entries)
    (hget : (ensureDir entries name).1[(ensureDir entries name).2]? = some (.dir dirName sub))
    (sub' : List VfsEntry) {p : List String} (hp : p ≠ []) :
    entryAt ((ensureDir entries name).1.set (ensureDir entries name).2 (.dir dirName sub'))
      (name :: p) = entryAt sub' p := by
  obtain ⟨e, he, hname, -⟩ := getElem?_ensureDir h name
  rw [hget] at he
  cases he
  have hfind := (h.ensureDir name).find?_set hget (rfl : (VfsEntry.dir dirName sub').name = dirName)
  rw [hname] at hfind
  exact entryAt_cons_dir hp hfind

end EnsureDir

/-- The walk of `add_dir` down `rel` runs `k` on the entries of the directory
at `rel`, or of an empty one it made, and the paths below `rel` then read
what `k` returned. -/
theorem entryAt_walkDir {β : Type} {k : List VfsEntry → Except BuildError (List VfsEntry × β)} :
    ∀ (rel : List String) {entries entries' : List VfsEntry} {r : β}, Sorted entries →
      walkDir k entries rel = .ok (entries', r) →
        ∃ leaf leaf', Sorted leaf ∧ k leaf = .ok (leaf', r) ∧
          (∀ p, p ≠ [] → entryAt leaf p = entryAt entries (rel ++ p)) ∧
          (∀ p, p ≠ [] → entryAt entries' (rel ++ p) = entryAt leaf' p)
  | [], entries, entries', r, h, hw => ⟨entries, entries', h, hw, fun _ _ => rfl, fun _ _ => rfl⟩
  | name :: rest, entries, entries', r, h, hw => by
      unfold walkDir at hw
      split at hw
      · rename_i dirName sub hget
        obtain ⟨⟨sub', r'⟩, hsub, hret⟩ := bind_eq_ok.1 hw
        cases hret
        have hsorted := (h.ensureDir name).sub (List.mem_of_getElem? hget)
        obtain ⟨leaf, leaf', hleaf, hk, hbefore, hafter⟩ := entryAt_walkDir rest hsorted hsub
        have hne : ∀ p : List String, p ≠ [] → rest ++ p ≠ [] := fun p hp => by simp [hp]
        refine ⟨leaf, leaf', hleaf, hk, fun p hp => ?_, fun p hp => ?_⟩
        · rw [hbefore p hp, List.cons_append, entryAt_cons_of_ensureDir h hget (hne p hp)]
        · rw [List.cons_append, entryAt_set_of_ensureDir h hget sub' (hne p hp), hafter p hp]
      · cases hw

/-! ## `add_file` -/

namespace VfsBuilder

variable {σ : Type} (checksum : List UInt8 → String)
  (addContent : σ → List String → String → List UInt8 → String × σ)

theorem pathRelativeRoot_append (b : VfsBuilder σ) (rel : List String) :
    b.pathRelativeRoot (b.rootPath ++ rel) = .ok rel := by
  have hprefix : b.rootPath.isPrefixOf (b.rootPath ++ rel) = true :=
    List.isPrefixOf_iff_prefix.2 (List.prefix_append _ _)
  rw [pathRelativeRoot, if_pos hprefix, List.drop_left]

/-- `add_dir` of a path below the root walks the path relative to it, and
leaves the root directory with the entries the walk returns. -/
theorem walkDir_of_addDirThen {β : Type} {b b' : VfsBuilder σ} {rel : List String}
    {k : List VfsEntry → Except BuildError (List VfsEntry × β)} {r : β}
    (hb : b.addDirThen (b.rootPath ++ rel) k = .ok (b', r)) :
    walkDir k b.rootDir.entries rel = .ok (b'.rootDir.entries, r) := by
  obtain ⟨rel', hrel, hb⟩ := bind_eq_ok.1 hb
  rw [pathRelativeRoot_append] at hrel
  cases hrel
  obtain ⟨⟨entries, r'⟩, hw, hret⟩ := bind_eq_ok.1 hb
  cases hret
  exact hw

/-- After `add_file` of a path below the root, on a sorted builder, the path
holds the entry it held, or the new file where it held none: a file of a
name already taken is ignored. -/
theorem entryAt_addFile {b b' : VfsBuilder σ} {rel : List String} {name : String}
    {data : List UInt8} (h : Sorted b.rootDir.entries)
    (hb : b.addFile checksum addContent (b.rootPath ++ rel ++ [name]) data = .ok b') :
    entryAt b'.rootDir.entries (rel ++ [name]) =
      some ((entryAt b.rootDir.entries (rel ++ [name])).getD
        (.file name (b.fileOffset checksum data).1
          ⟨(addContent b.callbackState (b.rootPath ++ rel ++ [name]) name data).1,
            UInt64.ofNat data.length⟩)) := by
  unfold addFile at hb
  rw [List.getLast?_concat, List.dropLast_concat] at hb
  obtain ⟨⟨b'', st⟩, hthen, hret⟩ := bind_eq_ok.1 hb
  cases hret
  have hw := walkDir_of_addDirThen hthen
  obtain ⟨leaf, leaf', hleaf, hk, hbefore, hafter⟩ := entryAt_walkDir rel h hw
  rw [hafter [name] (List.cons_ne_nil _ _), ← hbefore [name] (List.cons_ne_nil _ _),
    entryAt_singleton, entryAt_singleton]
  -- the closure `add_file` runs on the directory: keep a taken name, or insert the file
  cases hsearch : searchName leaf name with
  | ok i =>
      rw [hsearch] at hk
      cases hk
      obtain ⟨x, hx, hcmp⟩ := binarySearchBy_ok hsearch
      have hname : x.name = name := compare_eq_iff_eq.1 hcmp
      have hfind := hleaf.find?_of_getElem? hx
      rw [hname] at hfind
      rw [hfind]
      rfl
  | error i =>
      rw [hsearch] at hk
      cases hk
      rw [hleaf.find?_eq_none_of_searchName hsearch]
      exact hleaf.find?_insertIdx hsearch rfl (by rintro n sub ⟨⟩)

end VfsBuilder

/-! ## The walk of `find_entry` -/

namespace VfsRoot

variable (r : VfsRoot)

theorem walk_nil (fuel : Nat) (finalPath : List String) (e : VfsEntry) (seen : List (List String)) :
    r.walk (fuel + 1) finalPath e [] seen = some (.ok (finalPath, e), seen) := by
  rw [walk]

/-- One component of the walk on a sorted level: the search finds the entry
`find?` finds, and the walk goes on from it. -/
theorem walk_cons_of_find? {entries : List VfsEntry} (h : Sorted entries) {n c : String}
    {x : VfsEntry} (hfind : entries.find? (fun e => e.name = c) = some x) (fuel : Nat)
    (finalPath rest : List String) (seen : List (List String)) :
    r.walk (fuel + 2) finalPath (.dir n entries) (c :: rest) seen =
      r.walk (fuel + 1) (finalPath ++ [c]) x rest seen := by
  obtain ⟨i, hi, hget⟩ := h.searchName_of_find? hfind
  simp only [walk, enterDir, Option.bind_some, hi, hget]

/-- On a sorted tree the walk from a directory down `rel` ends at the entry
`entryAt` names, with `rel` added to the path walked so far. -/
theorem walk_of_entryAt (seen : List (List String)) :
    ∀ (rel : List String) {entries : List VfsEntry} {n : String} {e : VfsEntry} {fuel : Nat}
      (finalPath : List String), Sorted entries → entryAt entries rel = some e →
        rel.length + 1 ≤ fuel →
          r.walk fuel finalPath (.dir n entries) rel seen = some (.ok (finalPath ++ rel, e), seen)
  | [], _, _, _, _, _, _, he, _ => by cases he
  | c :: rest, entries, n, e, fuel, finalPath, h, he, hfuel => by
      obtain ⟨f, rfl⟩ : ∃ f, fuel = f + 2 := ⟨fuel - 2, by simp at hfuel; omega⟩
      cases rest with
      | nil =>
          rw [entryAt_singleton] at he
          rw [walk_cons_of_find? r h he, walk_nil]
      | cons c' rest' =>
          obtain ⟨dirName, sub, hfind, hsub⟩ := exists_dir_of_entryAt_cons (List.cons_ne_nil _ _) he
          have hsorted := h.sub (List.mem_of_find?_eq_some hfind)
          have hbound : (c' :: rest').length + 1 ≤ f + 1 := by
            simp only [List.length_cons] at hfuel ⊢
            omega
          rw [walk_cons_of_find? r h hfind, walk_of_entryAt seen (c' :: rest') (finalPath ++ [c])
            hsorted hsub hbound, List.append_assoc, List.singleton_append]

/-- On a sorted tree, `find_entry` of the root path followed by `rel` returns
the entry `entryAt` names there, with that path, unless it is a symlink. -/
theorem findEntry_of_entryAt {rel : List String} {e : VfsEntry} (h : Sorted r.dir.entries)
    (he : entryAt r.dir.entries rel = some e) (hlink : ∀ n d, e ≠ .symlink n d) {fuel : Nat}
    (hfuel : rel.length + 3 ≤ fuel) :
    r.findEntry fuel (r.rootPath ++ rel) = some (.ok (r.rootPath ++ rel, e)) := by
  obtain ⟨f, rfl⟩ : ∃ f, fuel = f + 2 := ⟨fuel - 2, by omega⟩
  have hprefix : r.rootPath.isPrefixOf (r.rootPath ++ rel) = true :=
    List.isPrefixOf_iff_prefix.2 (List.prefix_append _ _)
  have hbound : rel.length + 1 ≤ f := by omega
  have hwalk : r.walk f r.rootPath (.dir r.dir.name r.dir.entries) rel [] =
      some (.ok (r.rootPath ++ rel, e), []) :=
    r.walk_of_entryAt [] rel r.rootPath h he hbound
  simp only [findEntry, findEntryInner, findEntryNoFollowInner, hprefix, if_true, List.drop_left,
    hwalk, Option.bind_some]
  cases e with
  | dir n sub => rfl
  | file n offset file => rfl
  | symlink n d => exact absurd rfl (hlink n d)

end VfsRoot

/-! ## Serving the built tree -/

/-- `load_npm_vfs`, from the directory the eszip's npm section holds: the
tree under the runtime's root path, its root directory renamed after that
path's last component; an empty tree when the eszip holds none.  The error
is a panic's message. -/
def loadNpmVfs (rootDirPath : List String) : Option VirtualDirectory → Except String VfsRoot
  | some dir =>
      match rootDirPath.getLast? with
      | some name => .ok ⟨{ dir with name := name }, rootDirPath⟩
      | none => .error unwrapNoneMsg
  | none => .ok ⟨⟨"", []⟩, rootDirPath⟩

theorem loadNpmVfs_some {rootDirPath : List String} (hroot : rootDirPath ≠ []) (dir : VirtualDirectory) :
    ∃ r, loadNpmVfs rootDirPath (some dir) = .ok r ∧ r.dir.entries = dir.entries ∧
      r.rootPath = rootDirPath := by
  exact ⟨_, by rw [loadNpmVfs, List.getLast?_eq_some_getLast hroot], rfl, rfl⟩

namespace VfsBuilder

variable {σ : Type} (checksum : List UInt8 → String)
  (addContent : σ → List String → String → List UInt8 → String × σ)

/-- A file `add_file` puts at a path no entry was at is what `find_entry`
returns for that path, once `load_npm_vfs` serves the tree under a root:
the name, the offset of its contents and the key the add-content callback
gave them. -/
theorem findEntry_addFile {b b' : VfsBuilder σ} {rel : List String} {name : String}
    {data : List UInt8} (h : Sorted b.rootDir.entries)
    (hb : b.addFile checksum addContent (b.rootPath ++ rel ++ [name]) data = .ok b')
    (hnew : entryAt b.rootDir.entries (rel ++ [name]) = none) {rootDirPath : List String}
    (hroot : rootDirPath ≠ []) {fuel : Nat} (hfuel : rel.length + 4 ≤ fuel) :
    ∃ r, loadNpmVfs rootDirPath (some b'.rootDir) = .ok r ∧
      r.findEntry fuel (rootDirPath ++ rel ++ [name]) =
        some (.ok (rootDirPath ++ rel ++ [name], .file name (b.fileOffset checksum data).1
          ⟨(addContent b.callbackState (b.rootPath ++ rel ++ [name]) name data).1,
            UInt64.ofNat data.length⟩)) := by
  obtain ⟨r, hload, hentries, hpath⟩ := loadNpmVfs_some hroot b'.rootDir
  have hat := entryAt_addFile checksum addContent h hb
  rw [hnew, Option.getD_none, ← hentries] at hat
  have hsorted : Sorted r.dir.entries := hentries ▸ sorted_addFile checksum addContent h hb
  refine ⟨r, hload, ?_⟩
  rw [List.append_assoc, ← hpath]
  exact r.findEntry_of_entryAt hsorted hat (fun _ _ h => by cases h) (by simp; omega)

/-- A builder rooted at `/vfs` that adds `/vfs/pkg/index.js`: below the root
`/var/task`, `find_entry` of `/var/task/pkg/index.js` returns the file with
the callback's first key. -/
theorem findEntry_addFile_indexJs :
    ∃ r, loadNpmVfs ["var", "task"] (some ⟨"vfs", [.dir "pkg" [.file "index.js" 0 ⟨"vfs://0", 1⟩]]⟩)
        = .ok r ∧
      r.findEntry 6 (["var", "task"] ++ ["pkg"] ++ ["index.js"]) =
        some (.ok (["var", "task"] ++ ["pkg"] ++ ["index.js"], .file "index.js" 0 ⟨"vfs://0", 1⟩)) := by
  have hb : (VfsBuilder.new ["vfs"] 0).addFile (fun _ => "sum")
      (fun (count : Nat) _ _ _ => ("vfs://" ++ toString count, count + 1))
      ((VfsBuilder.new ["vfs"] 0).rootPath ++ ["pkg"] ++ ["index.js"]) [1] =
      .ok { rootPath := ["vfs"], rootDir := ⟨"vfs", [.dir "pkg" [.file "index.js" 0 ⟨"vfs://0", 1⟩]]⟩,
            currentOffset := 1, fileOffsets := [("sum", 0)], callbackState := 1 } := by
    decide +kernel
  exact findEntry_addFile _ _ Sorted.nil hb rfl (List.cons_ne_nil _ _) (by decide)

end VfsBuilder

end EdgeRuntime.Vfs
