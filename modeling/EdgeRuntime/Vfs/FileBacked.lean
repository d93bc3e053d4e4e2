import EdgeRuntime.Vfs.Served

/-!
# The file system an eszip's npm tree is served as

`FileBackedVfs` (crates/sb_fs/virtual_fs.rs) answers the runtime's file
system calls below the npm root from the tree `load_npm_vfs` serves: `stat`,
`lstat`, `canonicalize`, `read_link`, `read_dir` and `open_file` each look a
path up with `find_entry` or `find_entry_no_follow` and read the entry found.

Every result of a lookup is backed by the tree (`sound_findEntryInner`): on
a sorted tree, an entry the tree holds at the path the lookup reports; on any
tree, one of the lookup's two errors.  The walk goes only through
directories, a symlink met on the way is looked up from the root, and the
loop of `find_entry` follows a symlink the path ends in until it reaches
something else.

## Main results

* `canonicalize_canonicalize`: on a sorted tree the path `canonicalize`
  returns is its own canonical path, and `stat` of it reads the same entry.
* `openFile_readDir_errors`: on any tree, when the lookup finishes,
  `open_file` and `read_dir` fail only with a path not found, circular
  symlinks, or an entry of the other kind; the `unreachable!()` of
  `file_entry` and `dir_entry` is never reached.
-/

namespace EdgeRuntime.Vfs

open EdgeRuntime.Verified.SortedSearch

/-! ## The served file system -/

/-- `FsStat`, with the fields the virtual file system sets: the others are
always `0`, `None` or `false`. -/
structure FsStat where
  isDirectory : Bool
  isFile : Bool
  isSymlink : Bool
  size : UInt64
  deriving DecidableEq, Repr

/-- `VfsEntryRef::as_fs_stat`. -/
def VfsEntry.asFsStat : VfsEntry → FsStat
  | .dir _ _ => ⟨true, false, false, 0⟩
  | .file _ _ f => ⟨false, true, false, f.len⟩
  | .symlink _ _ => ⟨false, false, true, 0⟩

/-- `FsDirEntry`. -/
structure FsDirEntry where
  name : String
  isFile : Bool
  isDirectory : Bool
  isSymlink : Bool
  deriving DecidableEq, Repr

/-- The `FsDirEntry` `read_dir` lists an entry as. -/
def VfsEntry.dirEntry : VfsEntry → FsDirEntry
  | .dir name _ => ⟨name, false, true, false⟩
  | .file name _ _ => ⟨name, true, false, false⟩
  | .symlink name _ => ⟨name, false, false, true⟩

/-- How a call of the served file system fails: an I/O error, or a panic
with the message the source prints. -/
inductive ApiError
  | io (e : IoError)
  | panic (msg : String)
  deriving DecidableEq, Repr

/-- The error `file_entry` raises on a directory. -/
def pathIsDirectory : IoError := ⟨.other, "path is a directory"⟩

/-- The error `dir_entry` raises on a file. -/
def pathIsFile : IoError := ⟨.other, "path is a file"⟩

/-- The error `read_link` raises on anything but a symlink. -/
def notASymlink : IoError := ⟨.other, "not a symlink"⟩

/-- `FileBackedVfs`: the eszip the contents of files are read from, and the
tree. -/
structure FileBackedVfs where
  eszip : EszipSources
  fsRoot : VfsRoot

namespace FileBackedVfs

variable (vfs : FileBackedVfs)

/-- `FileBackedVfs::is_path_within`. -/
def isPathWithin (path : List String) : Bool := vfs.fsRoot.rootPath.isPrefixOf path

variable (fuel : Nat) (path : List String)

/-- `FileBackedVfs::stat`. -/
def stat : Option (Except IoError FsStat) :=
  (vfs.fsRoot.findEntry fuel path).map fun r => r.map fun found => found.2.asFsStat

/-- `FileBackedVfs::lstat`. -/
def lstat : Option (Except IoError FsStat) :=
  (vfs.fsRoot.findEntryNoFollow fuel path).map fun r => r.map fun found => found.2.asFsStat

/-- `FileBackedVfs::canonicalize`. -/
def canonicalize : Option (Except IoError (List String)) :=
  (vfs.fsRoot.findEntry fuel path).map fun r => r.map Prod.fst

/-- `FileBackedVfs::read_link`. -/
def readLink : Option (Except IoError (List String)) :=
  (vfs.fsRoot.findEntryNoFollow fuel path).map fun
    | .ok (_, .symlink _ destParts) => .ok (resolveDestFromRoot destParts vfs.fsRoot.rootPath)
    | .ok _ => .error notASymlink
    | .error e => .error e

/-- `FileBackedVfs::dir_entry`. -/
def dirEntry : Option (Except ApiError VirtualDirectory) :=
  (vfs.fsRoot.findEntry fuel path).map fun
    | .ok (_, .dir name entries) => .ok ⟨name, entries⟩
    | .ok (_, .symlink _ _) => .error (.panic unreachableMsg)
    | .ok (_, .file _ _ _) => .error (.io pathIsFile)
    | .error e => .error (.io e)

/-- `FileBackedVfs::file_entry`. -/
def fileEntry : Option (Except ApiError VirtualFile) :=
  (vfs.fsRoot.findEntry fuel path).map fun
    | .ok (_, .dir _ _) => .error (.io pathIsDirectory)
    | .ok (_, .symlink _ _) => .error (.panic unreachableMsg)
    | .ok (_, .file _ _ file) => .ok file
    | .error e => .error (.io e)

/-- `FileBackedVfs::read_dir`. -/
def readDir : Option (Except ApiError (List FsDirEntry)) :=
  (vfs.dirEntry fuel path).map fun r => r.map fun dir => dir.entries.map VfsEntry.dirEntry

/-- `FileBackedVfs::open_file`: the file, with its cursor at `0`. -/
def openFile : Option (Except ApiError VfsFile) :=
  (vfs.fileEntry fuel path).map fun r => r.map VfsFile.openFile

/-- `FileBackedVfs::read_file_all`: a buffer of the file's length, filled by
`read_file` from position `0`. -/
def readFileAll (file : VirtualFile) : Except IoError (List UInt8) :=
  (file.readFile vfs.eszip 0 (List.replicate file.len.toNat 0)).map Prod.snd

end FileBackedVfs

/-! ## The tree below the root -/

/-- Below a directory an entry reaches, `entryAt` reads that directory. -/
theorem entryAt_append_of_dir {n : String} {sub : List VfsEntry} (q : List String) (hq : q ≠ []) :
    ∀ {l : List VfsEntry} {P : List String}, entryAt l P = some (.dir n sub) →
      entryAt l (P ++ q) = entryAt sub q
  | _, [], h => by cases h
  | l, c :: P', h => by
      by_cases hP' : P' = []
      · subst hP'
        rw [entryAt_singleton] at h
        exact entryAt_cons_dir hq h
      · obtain ⟨d, sub0, hfind, hsub⟩ := exists_dir_of_entryAt_cons hP' h
        rw [List.cons_append, entryAt_cons_dir (by simp [hP']) hfind]
        exact entryAt_append_of_dir q hq hsub

/-- Every directory an entry of a sorted tree reaches is sorted. -/
theorem sorted_of_entryAt {n : String} {sub : List VfsEntry} :
    ∀ {l : List VfsEntry} {P : List String}, Sorted l → entryAt l P = some (.dir n sub) → Sorted sub
  | _, [], _, h => by cases h
  | l, c :: P', hl, h => by
      by_cases hP' : P' = []
      · subst hP'
        rw [entryAt_singleton] at h
        exact hl.sub (List.mem_of_find?_eq_some h)
      · obtain ⟨d, sub0, hfind, hsub⟩ := exists_dir_of_entryAt_cons hP' h
        exact sorted_of_entryAt (hl.sub (List.mem_of_find?_eq_some hfind)) hsub

/-- Every proper prefix of a path an entry is at names a directory. -/
theorem entryAt_prefix_dir {s : List String} (hs : s ≠ []) :
    ∀ {l : List VfsEntry} {q : List String} {e : VfsEntry}, q ≠ [] → entryAt l (q ++ s) = some e →
      ∃ n sub, entryAt l q = some (.dir n sub)
  | _, [], _, hq, _ => absurd rfl hq
  | l, c :: q', e, _, he => by
      have hne : q' ++ s ≠ [] := by simp [hs]
      rw [List.cons_append] at he
      obtain ⟨d, sub, hfind, hsub⟩ := exists_dir_of_entryAt_cons hne he
      by_cases hq' : q' = []
      · subst hq'
        exact ⟨d, sub, by rw [entryAt_singleton]; exact hfind⟩
      · obtain ⟨n, sub', hat⟩ := entryAt_prefix_dir hs hq' hsub
        exact ⟨n, sub', by rw [entryAt_cons_dir hq' hfind]; exact hat⟩

namespace VfsRoot

variable (r : VfsRoot)

/-- The entry at a path relative to the root: the root directory itself, or
the entry `entryAt` names. -/
def entryOf : List String → Option VfsEntry
  | [] => some (.dir r.dir.name r.dir.entries)
  | c :: rest => entryAt r.dir.entries (c :: rest)

theorem entryOf_append_singleton {rel : List String} {n : String} {entries : List VfsEntry}
    (h : r.entryOf rel = some (.dir n entries)) (c : String) :
    r.entryOf (rel ++ [c]) = entries.find? (fun e => e.name = c) := by
  cases rel with
  | nil =>
      cases h
      exact entryAt_singleton _ _
  | cons c' rel' =>
      have h' : entryAt r.dir.entries (c' :: rel') = some (.dir n entries) := h
      show entryAt r.dir.entries ((c' :: rel') ++ [c]) = _
      rw [entryAt_append_of_dir [c] (List.cons_ne_nil _ _) h', entryAt_singleton]

theorem sorted_of_entryOf (h : Sorted r.dir.entries) {rel : List String} {n : String}
    {sub : List VfsEntry} (he : r.entryOf rel = some (.dir n sub)) : Sorted sub := by
  cases rel with
  | nil =>
      cases he
      exact h
  | cons c rel' => exact sorted_of_entryAt h he

/-- Every proper prefix of a path the tree holds an entry at names a
directory, the root included. -/
theorem entryOf_prefix_dir {q s : List String} {e : VfsEntry} (hs : s ≠ [])
    (he : r.entryOf (q ++ s) = some e) : ∃ n sub, r.entryOf q = some (.dir n sub) := by
  cases q with
  | nil => exact ⟨_, _, rfl⟩
  | cons c q' =>
      have he' : entryAt r.dir.entries ((c :: q') ++ s) = some e := he
      exact entryAt_prefix_dir hs (List.cons_ne_nil _ _) he'

/-! ## What a lookup returns -/

/-- A result of a lookup the tree backs: on a sorted tree, an entry the tree
holds at the path reported; on any tree, one of the lookup's two errors. -/
def Sound : Except IoError (List String × VfsEntry) → Prop
  | .ok (p, e) => Sorted r.dir.entries → ∃ rel, p = r.rootPath ++ rel ∧ r.entryOf rel = some e
  | .error err => err = pathNotFound ∨ err = circularSymlinks

/-- The same for the directory a component is looked up in, whose path ends
with the component. -/
def SoundDir (c : String) : Except IoError (List String × List VfsEntry) → Prop
  | .ok (p, entries) => Sorted r.dir.entries →
      ∃ rel n, p = r.rootPath ++ rel ++ [c] ∧ r.entryOf rel = some (.dir n entries)
  | .error err => err = pathNotFound ∨ err = circularSymlinks

/-- The walk is at an entry the tree holds at the path walked so far. -/
def At (finalPath : List String) (current : VfsEntry) : Prop :=
  Sorted r.dir.entries → ∃ rel, finalPath = r.rootPath ++ rel ∧ r.entryOf rel = some current

/-- A result that is not a symlink. -/
def NotSymlink : Except IoError (List String × VfsEntry) → Prop
  | .ok (_, .symlink _ _) => False
  | _ => True

mutual

/-- Every result of `find_entry_inner` is backed by the tree and is not a
symlink: the loop follows one until it reaches something else. -/
theorem sound_findEntryInner :
    ∀ {fuel : Nat} {path : List String} {seen : List (List String)}
      {res : Except IoError (List String × VfsEntry)} {seen' : List (List String)},
      r.findEntryInner fuel path seen = some (res, seen') → r.Sound res ∧ NotSymlink res
  | 0, _, _, _, _, h => by cases h
  | fuel + 1, path, seen, res, seen', h => by
      cases hnf : r.findEntryNoFollowInner fuel path seen with
      | none =>
          rw [findEntryInner, hnf] at h
          cases h
      | some found =>
          obtain ⟨res1, seen1⟩ := found
          have hs := sound_findEntryNoFollowInner hnf
          rw [findEntryInner, hnf, Option.bind_some] at h
          rcases res1 with err | ⟨p, e⟩
          · cases h
            exact ⟨hs, trivial⟩
          · cases e with
            | symlink n destParts =>
                dsimp only at h
                split at h
                · cases h
                  exact ⟨.inr rfl, trivial⟩
                · exact sound_findEntryInner h
            | dir n entries =>
                cases h
                exact ⟨hs, trivial⟩
            | file n offset file =>
                cases h
                exact ⟨hs, trivial⟩

theorem sound_findEntryNoFollowInner :
    ∀ {fuel : Nat} {path : List String} {seen : List (List String)}
      {res : Except IoError (List String × VfsEntry)} {seen' : List (List String)},
      r.findEntryNoFollowInner fuel path seen = some (res, seen') → r.Sound res
  | 0, _, _, _, _, h => by cases h
  | fuel + 1, path, seen, res, seen', h => by
      rw [findEntryNoFollowInner] at h
      split at h
      · exact sound_walk (fun _ => ⟨[], by simp, rfl⟩) h
      · cases h
        exact .inl rfl

/-- The walk from an entry the tree holds ends at one, or fails with one of
the lookup's errors. -/
theorem sound_walk :
    ∀ {fuel : Nat} {finalPath : List String} {current : VfsEntry} {rest : List String}
      {seen : List (List String)} {res : Except IoError (List String × VfsEntry)}
      {seen' : List (List String)},
      r.At finalPath current → r.walk fuel finalPath current rest seen = some (res, seen') →
        r.Sound res
  | 0, _, _, _, _, _, _, _, h => by cases h
  | _ + 1, finalPath, current, [], seen, res, seen', hat, h => by
      rw [walk] at h
      cases h
      exact hat
  | fuel + 1, finalPath, current, c :: rest, seen, res, seen', hat, h => by
      cases he : r.enterDir fuel finalPath current c seen with
      | none =>
          rw [walk, he] at h
          cases h
      | some found =>
          obtain ⟨res1, seen1⟩ := found
          have hdir := sound_enterDir hat he
          rw [walk, he, Option.bind_some] at h
          rcases res1 with err | ⟨fp, entries⟩
          · cases h
            exact hdir
          · dsimp only at h
            cases hsearch : searchName entries c with
            | error i =>
                rw [hsearch] at h
                cases h
                exact .inl rfl
            | ok i =>
                rw [hsearch] at h
                dsimp only at h
                cases hget : entries[i]? with
                | none =>
                    rw [hget] at h
                    cases h
                    exact .inl rfl
                | some entry =>
                    rw [hget] at h
                    refine sound_walk (fun hsorted => ?_) h
                    -- the entry the search found is the one `find?` finds by the component
                    obtain ⟨rel, n, hfp, hrel⟩ := hdir hsorted
                    obtain ⟨x, hx, hcmp⟩ := binarySearchBy_ok hsearch
                    rw [hget] at hx
                    cases hx
                    have hname : entry.name = c := compare_eq_iff_eq.1 hcmp
                    have hfind := (r.sorted_of_entryOf hsorted hrel).find?_of_getElem? hget
                    rw [hname] at hfind
                    exact ⟨rel ++ [c], by rw [hfp, List.append_assoc],
                      by rw [r.entryOf_append_singleton hrel, hfind]⟩

/-- The directory a component is looked up in is one the tree holds, or the
step fails with one of the lookup's errors. -/
theorem sound_enterDir :
    ∀ {fuel : Nat} {finalPath : List String} {current : VfsEntry} {c : String}
      {seen : List (List String)} {res : Except IoError (List String × List VfsEntry)}
      {seen' : List (List String)},
      r.At finalPath current → r.enterDir fuel finalPath current c seen = some (res, seen') →
        r.SoundDir c res
  | 0, _, _, _, _, _, _, _, h => by cases h
  | _ + 1, finalPath, .dir n entries, c, seen, res, seen', hat, h => by
      rw [enterDir] at h
      cases h
      intro hsorted
      obtain ⟨rel, hfp, hrel⟩ := hat hsorted
      exact ⟨rel, n, by rw [hfp], hrel⟩
  | fuel + 1, finalPath, .symlink n destParts, c, seen, res, seen', _, h => by
      cases hf : r.findEntryInner fuel (resolveDestFromRoot destParts r.rootPath) seen with
      | none =>
          rw [enterDir, hf] at h
          cases h
      | some found =>
          obtain ⟨res1, seen1⟩ := found
          have hs := (sound_findEntryInner hf).1
          rw [enterDir, hf, Option.map_some] at h
          rcases res1 with err | ⟨p, e⟩
          · cases h
            exact hs
          · cases e with
            | dir n' entries =>
                cases h
                intro hsorted
                obtain ⟨rel, hp, hrel⟩ := hs hsorted
                exact ⟨rel, n', by rw [hp], hrel⟩
            | file _ _ _ =>
                cases h
                exact .inl rfl
            | symlink _ _ =>
                cases h
                exact .inl rfl
  | _ + 1, _, .file _ _ _, _, seen, res, seen', _, h => by
      rw [enterDir] at h
      cases h
      exact .inl rfl

end

theorem sound_findEntry {fuel : Nat} {path : List String}
    {res : Except IoError (List String × VfsEntry)} (h : r.findEntry fuel path = some res) :
    r.Sound res ∧ NotSymlink res := by
  obtain ⟨⟨res', seen'⟩, hinner, hres⟩ := Option.map_eq_some_iff.1 h
  cases hres
  exact r.sound_findEntryInner hinner

/-- On a sorted tree, an entry `find_entry` returns is one the tree holds at
the path reported, and not a symlink. -/
theorem entryOf_of_findEntry (h : Sorted r.dir.entries) {fuel : Nat} {path p : List String}
    {e : VfsEntry} (hfind : r.findEntry fuel path = some (.ok (p, e))) :
    ∃ rel, p = r.rootPath ++ rel ∧ r.entryOf rel = some e ∧ ∀ n d, e ≠ .symlink n d := by
  obtain ⟨hsound, hnot⟩ := r.sound_findEntry hfind
  obtain ⟨rel, hp, hrel⟩ := hsound h
  refine ⟨rel, hp, hrel, ?_⟩
  rintro n d rfl
  exact hnot

/-- A failure of a call that reads the entry `find_entry` returns is an
error of the lookup, or a failure on an entry that is not a symlink. -/
theorem error_of_map_findEntry {α ε : Type} (f : Except IoError (List String × VfsEntry) → Except ε α)
    (io : IoError → ε) (hf : ∀ e, f (.error e) = .error (io e)) {fuel : Nat} {path : List String}
    {err : ε} (h : (r.findEntry fuel path).map f = some (.error err)) :
    err = io pathNotFound ∨ err = io circularSymlinks ∨
      ∃ p e, (∀ n d, e ≠ .symlink n d) ∧ f (.ok (p, e)) = .error err := by
  obtain ⟨res, hfind, hres⟩ := Option.map_eq_some_iff.1 h
  obtain ⟨hsound, hnot⟩ := r.sound_findEntry hfind
  rcases res with e | ⟨p, entry⟩
  · rw [hf] at hres
    cases hres
    rcases hsound with rfl | rfl
    · exact .inl rfl
    · exact .inr (.inl rfl)
  · refine .inr (.inr ⟨p, entry, ?_, hres⟩)
    rintro n d rfl
    exact hnot

/-- On a sorted tree, `find_entry` of the root path followed by `rel` returns
the entry the tree holds there, the root directory included, unless it is a
symlink. -/
theorem findEntry_of_entryOf (h : Sorted r.dir.entries) {rel : List String} {e : VfsEntry}
    (he : r.entryOf rel = some e) (hlink : ∀ n d, e ≠ .symlink n d) {fuel : Nat}
    (hfuel : rel.length + 3 ≤ fuel) :
    r.findEntry fuel (r.rootPath ++ rel) = some (.ok (r.rootPath ++ rel, e)) := by
  cases rel with
  | nil =>
      cases he
      obtain ⟨f, rfl⟩ : ∃ f, fuel = f + 3 := ⟨fuel - 3, by simp at hfuel; omega⟩
      have hprefix : r.rootPath.isPrefixOf r.rootPath = true :=
        List.isPrefixOf_iff_prefix.2 (List.prefix_refl _)
      simp only [List.append_nil, findEntry, findEntryInner, findEntryNoFollowInner, hprefix,
        if_true, List.drop_length, walk, Option.bind_some, Option.map_some]
  | cons c rel' => exact r.findEntry_of_entryAt h he hlink hfuel

end VfsRoot

namespace FileBackedVfs

variable (vfs : FileBackedVfs)

theorem findEntry_of_canonicalize {fuel : Nat} {path p : List String}
    (hcanon : vfs.canonicalize fuel path = some (.ok p)) :
    ∃ e, vfs.fsRoot.findEntry fuel path = some (.ok (p, e)) := by
  obtain ⟨res, hfind, hres⟩ := Option.map_eq_some_iff.1 hcanon
  rcases res with err | ⟨p', e⟩
  · cases hres
  · cases hres
    exact ⟨e, hfind⟩

/-- On a sorted tree, `canonicalize` resolves every symlink: the path it
returns is the root path followed by a path that names a file or a
directory, every proper prefix of which names a directory. -/
theorem canonicalize_resolves (h : Sorted vfs.fsRoot.dir.entries) {fuel : Nat}
    {path p : List String} (hcanon : vfs.canonicalize fuel path = some (.ok p)) :
    ∃ rel e, p = vfs.fsRoot.rootPath ++ rel ∧ vfs.fsRoot.entryOf rel = some e ∧
      (∀ n d, e ≠ .symlink n d) ∧
      ∀ q s, rel = q ++ s → s ≠ [] → ∃ n sub, vfs.fsRoot.entryOf q = some (.dir n sub) := by
  obtain ⟨e, hfind⟩ := vfs.findEntry_of_canonicalize hcanon
  obtain ⟨rel, hp, hrel, hlink⟩ := vfs.fsRoot.entryOf_of_findEntry h hfind
  refine ⟨rel, e, hp, hrel, hlink, fun q s hqs hs => ?_⟩
  rw [hqs] at hrel
  exact vfs.fsRoot.entryOf_prefix_dir hs hrel

/-- The tree of the examples below: under `/vfs`, a directory `a` holding a
file `f`, and a symlink `l` to `a`. -/
theorem sorted_linkTree : Sorted [.dir "a" [.file "f" 0 ⟨"vfs://0", 1⟩], .symlink "l" ["a"]] := by
  refine ⟨by decide, fun n sub hmem => ?_⟩
  simp only [List.mem_cons, VfsEntry.dir.injEq, List.mem_nil_iff, or_false, reduceCtorEq] at hmem
  obtain ⟨rfl, rfl⟩ := hmem
  exact ⟨by decide, fun _ _ h => by simp at h⟩

theorem canonicalize_linkTree :
    (FileBackedVfs.mk (fun _ => none)
      ⟨⟨"vfs", [.dir "a" [.file "f" 0 ⟨"vfs://0", 1⟩], .symlink "l" ["a"]]⟩, ["vfs"]⟩).canonicalize
      10 ["vfs", "l", "f"] = some (.ok ["vfs", "a", "f"]) := by
  decide +kernel

/-- In that tree, `/vfs/l/f` resolves to `/vfs/a/f`, whose prefix `/vfs/a`
is a directory. -/
theorem canonicalize_resolves_link :
    Sorted [.dir "a" [.file "f" 0 ⟨"vfs://0", 1⟩], .symlink "l" ["a"]] ∧
      (FileBackedVfs.mk (fun _ => none)
        ⟨⟨"vfs", [.dir "a" [.file "f" 0 ⟨"vfs://0", 1⟩], .symlink "l" ["a"]]⟩, ["vfs"]⟩).canonicalize
        10 ["vfs", "l", "f"] = some (.ok ["vfs", "a", "f"]) ∧
      ∃ rel e, ["vfs", "a", "f"] = ["vfs"] ++ rel ∧
        (VfsRoot.mk ⟨"vfs", [.dir "a" [.file "f" 0 ⟨"vfs://0", 1⟩], .symlink "l" ["a"]]⟩
          ["vfs"]).entryOf rel = some e ∧
        (∀ n d, e ≠ .symlink n d) ∧
        ∀ q s, rel = q ++ s → s ≠ [] → ∃ n sub,
          (VfsRoot.mk ⟨"vfs", [.dir "a" [.file "f" 0 ⟨"vfs://0", 1⟩], .symlink "l" ["a"]]⟩
            ["vfs"]).entryOf q = some (.dir n sub) := by
  exact ⟨sorted_linkTree, canonicalize_linkTree,
    canonicalize_resolves _ sorted_linkTree canonicalize_linkTree⟩

/-- On a sorted tree, the path `canonicalize` returns is its own canonical
path, and `stat` of it reads the entry the first lookup found. -/
theorem canonicalize_canonicalize (h : Sorted vfs.fsRoot.dir.entries) {fuel : Nat}
    {path p : List String} (hcanon : vfs.canonicalize fuel path = some (.ok p)) {fuel' : Nat}
    (hfuel : p.length + 3 ≤ fuel') :
    vfs.canonicalize fuel' p = some (.ok p) ∧ vfs.stat fuel' p = vfs.stat fuel path := by
  obtain ⟨e, hfind⟩ := vfs.findEntry_of_canonicalize hcanon
  obtain ⟨rel, hp, hrel, hlink⟩ := vfs.fsRoot.entryOf_of_findEntry h hfind
  have hbound : rel.length + 3 ≤ fuel' := by
    rw [hp, List.length_append] at hfuel
    omega
  have hagain := vfs.fsRoot.findEntry_of_entryOf h hrel hlink hbound
  rw [← hp] at hagain
  simp only [canonicalize, stat, hagain, hfind, Option.map_some, Except.map, and_true]

/-- In the same tree, `/vfs/l/f` is canonically `/vfs/a/f`, which is its own
canonical path. -/
theorem canonicalize_canonicalize_link :
    (FileBackedVfs.mk (fun _ => none)
        ⟨⟨"vfs", [.dir "a" [.file "f" 0 ⟨"vfs://0", 1⟩], .symlink "l" ["a"]]⟩, ["vfs"]⟩).canonicalize
        10 ["vfs", "l", "f"] = some (.ok ["vfs", "a", "f"]) ∧
      (FileBackedVfs.mk (fun _ => none)
        ⟨⟨"vfs", [.dir "a" [.file "f" 0 ⟨"vfs://0", 1⟩], .symlink "l" ["a"]]⟩, ["vfs"]⟩).canonicalize
        6 ["vfs", "a", "f"] = some (.ok ["vfs", "a", "f"]) ∧
      (FileBackedVfs.mk (fun _ => none)
        ⟨⟨"vfs", [.dir "a" [.file "f" 0 ⟨"vfs://0", 1⟩], .symlink "l" ["a"]]⟩, ["vfs"]⟩).stat
        6 ["vfs", "a", "f"] =
      (FileBackedVfs.mk (fun _ => none)
        ⟨⟨"vfs", [.dir "a" [.file "f" 0 ⟨"vfs://0", 1⟩], .symlink "l" ["a"]]⟩, ["vfs"]⟩).stat
        10 ["vfs", "l", "f"] := by
  exact ⟨canonicalize_linkTree,
    canonicalize_canonicalize _ sorted_linkTree canonicalize_linkTree (by decide)⟩

/-- `file_entry` fails only with an error of the lookup or on a directory. -/
theorem fileEntry_error {fuel : Nat} {path : List String} {err : ApiError}
    (h : vfs.fileEntry fuel path = some (.error err)) :
    err = .io pathNotFound ∨ err = .io circularSymlinks ∨ err = .io pathIsDirectory := by
  rcases vfs.fsRoot.error_of_map_findEntry _ ApiError.io (fun _ => rfl) h with
    hlook | hlook | ⟨p, e, hlink, hres⟩
  · exact .inl hlook
  · exact .inr (.inl hlook)
  · cases e with
    | dir _ _ =>
        cases hres
        exact .inr (.inr rfl)
    | file _ _ _ => cases hres
    | symlink n d => exact absurd rfl (hlink n d)

/-- `dir_entry` fails only with an error of the lookup or on a file. -/
theorem dirEntry_error {fuel : Nat} {path : List String} {err : ApiError}
    (h : vfs.dirEntry fuel path = some (.error err)) :
    err = .io pathNotFound ∨ err = .io circularSymlinks ∨ err = .io pathIsFile := by
  rcases vfs.fsRoot.error_of_map_findEntry _ ApiError.io (fun _ => rfl) h with
    hlook | hlook | ⟨p, e, hlink, hres⟩
  · exact .inl hlook
  · exact .inr (.inl hlook)
  · cases e with
    | dir _ _ => cases hres
    | file _ _ _ =>
        cases hres
        exact .inr (.inr rfl)
    | symlink n d => exact absurd rfl (hlink n d)

/-- On any tree, a lookup that finishes (within the fuel given; on a tree
whose symlinks loop through a middle component `find_entry` recurses without
end) makes `open_file` fail only with a path not found, circular symlinks or
a directory at the path, and `read_dir` only with the first two or a file at
the path: neither reaches the `unreachable!()` of `file_entry` or
`dir_entry`. -/
theorem openFile_readDir_errors (fuel : Nat) (path : List String) :
    (∀ err, vfs.openFile fuel path = some (.error err) →
      err = .io pathNotFound ∨ err = .io circularSymlinks ∨ err = .io pathIsDirectory) ∧
    (∀ err, vfs.readDir fuel path = some (.error err) →
      err = .io pathNotFound ∨ err = .io circularSymlinks ∨ err = .io pathIsFile) := by
  constructor
  · intro err h
    obtain ⟨res, hfile, hres⟩ := Option.map_eq_some_iff.1 h
    rcases res with e | file
    · cases hres
      exact vfs.fileEntry_error hfile
    · cases hres
  · intro err h
    obtain ⟨res, hdir, hres⟩ := Option.map_eq_some_iff.1 h
    rcases res with e | dir
    · cases hres
      exact vfs.dirEntry_error hdir
    · cases hres

/-- Opening the directory `/vfs/a` of the tree above fails with
`path is a directory`, one of the errors `open_file` may give. -/
theorem openFile_readDir_errors_dir :
    (FileBackedVfs.mk (fun _ => none)
        ⟨⟨"vfs", [.dir "a" [.file "f" 0 ⟨"vfs://0", 1⟩], .symlink "l" ["a"]]⟩, ["vfs"]⟩).openFile
        6 ["vfs", "l"] = some (.error (.io pathIsDirectory)) ∧
      (ApiError.io pathIsDirectory = .io pathNotFound ∨ ApiError.io pathIsDirectory = .io circularSymlinks ∨
        ApiError.io pathIsDirectory = .io pathIsDirectory) := by
  have hopen : (FileBackedVfs.mk (fun _ => none)
      ⟨⟨"vfs", [.dir "a" [.file "f" 0 ⟨"vfs://0", 1⟩], .symlink "l" ["a"]]⟩, ["vfs"]⟩).openFile
      6 ["vfs", "l"] = some (.error (.io pathIsDirectory)) := by
    decide +kernel
  exact ⟨hopen, (openFile_readDir_errors _ 6 ["vfs", "l"]).1 _ hopen⟩

end FileBackedVfs

end EdgeRuntime.Vfs
