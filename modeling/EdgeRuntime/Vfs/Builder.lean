import EdgeRuntime.Verified.SortedSearch
import EdgeRuntime.Verified.Fallible
import EdgeRuntime.Vfs.File
import Mathlib.Data.List.Sort
import Mathlib.Data.String.Basic

/-!
# Building the npm virtual file system

`VfsBuilder` (crates/sb_fs/virtual_fs.rs) turns the npm packages a bundle
needs into a tree of `VfsEntry`s.  Every level keeps its entries sorted by
name: `add_dir`, `add_file` and `add_symlink` look a name up with
`binary_search_by` and insert a missing one where the search says.

`build_vfs` (crates/sb_fs/lib.rs) adds each package folder with
`add_dir_recursive`.  A project without a `node_modules` folder has its
packages in the global npm cache, one directory per registry; `build_vfs`
then flattens the registries' children into one directory `localhost`, in
the order the registries come, and sorts the root level alone.

Paths are lists of components below the file system's root, as
`Path::components` yields them for the canonical absolute paths the builder
sees.  The file system the builder reads is a tree of `FsNode`s: what
`read_dir`, `file_type`, `read` and `canonicalize_path` report for each
entry; the real file system's I/O errors are left out.  A panic
(`unreachable!`, `unwrap` of `None`, `panic!`) ends a build with
`BuildError.panic` and the message the source prints.  The builder's `files`
vector, never pushed to, is left out.

## Main results

* `Sorted.addDirRecursive`: every level the builder makes is sorted, from
  any sorted builder, over any file system tree.
-/

namespace EdgeRuntime.Vfs

open EdgeRuntime.Verified.SortedSearch EdgeRuntime.Verified.Fallible

/-- `VfsEntry`.  A directory is a `VirtualDirectory`; a file is a
`VirtualFile`, whose key and length `FileBackedVfsFile` reads, with its name
and offset. -/
inductive VfsEntry
  | dir (name : String) (entries : List VfsEntry)
  | file (name : String) (offset : UInt64) (file : VirtualFile)
  | symlink (name : String) (destParts : List String)
  deriving Repr

/-- `VfsEntry::name`. -/
def VfsEntry.name : VfsEntry → String
  | .dir name _ => name
  | .file name _ _ => name
  | .symlink name _ => name

mutual

/-- Equality of entries, decided through the tree. -/
def VfsEntry.decEq : (a b : VfsEntry) → Decidable (a = b)
  | .dir n es, .dir m fs =>
      if hn : n = m then
        match VfsEntry.decEqList es fs with
        | isTrue hes => isTrue (hn ▸ hes ▸ rfl)
        | isFalse hes => isFalse fun h => by cases h; exact hes rfl
      else isFalse fun h => by cases h; exact hn rfl
  | .file n o f, .file m p g =>
      if h : n = m ∧ o = p ∧ f = g then isTrue (by obtain ⟨rfl, rfl, rfl⟩ := h; rfl)
      else isFalse fun e => by cases e; exact h ⟨rfl, rfl, rfl⟩
  | .symlink n ds, .symlink m es =>
      if h : n = m ∧ ds = es then isTrue (by obtain ⟨rfl, rfl⟩ := h; rfl)
      else isFalse fun e => by cases e; exact h ⟨rfl, rfl⟩
  | .dir _ _, .file _ _ _ => isFalse fun h => by cases h
  | .dir _ _, .symlink _ _ => isFalse fun h => by cases h
  | .file _ _ _, .dir _ _ => isFalse fun h => by cases h
  | .file _ _ _, .symlink _ _ => isFalse fun h => by cases h
  | .symlink _ _, .dir _ _ => isFalse fun h => by cases h
  | .symlink _ _, .file _ _ _ => isFalse fun h => by cases h

/-- Equality of lists of entries, decided entry by entry. -/
def VfsEntry.decEqList : (a b : List VfsEntry) → Decidable (a = b)
  | [], [] => isTrue rfl
  | [], _ :: _ => isFalse fun h => by cases h
  | _ :: _, [] => isFalse fun h => by cases h
  | a :: as, b :: bs =>
      match VfsEntry.decEq a b, VfsEntry.decEqList as bs with
      | isTrue h1, isTrue h2 => isTrue (h1 ▸ h2 ▸ rfl)
      | isFalse h1, _ => isFalse fun h => by cases h; exact h1 rfl
      | _, isFalse h2 => isFalse fun h => by cases h; exact h2 rfl

end

instance : DecidableEq VfsEntry := VfsEntry.decEq

/-- `VirtualDirectory`. -/
structure VirtualDirectory where
  name : String
  entries : List VfsEntry
  deriving DecidableEq, Repr

/-- How a build ends when it does not succeed. -/
inductive BuildError
  /-- `StripRootError`: the path is not under the builder's root. -/
  | stripRoot (rootPath target : List String)
  /-- A panic, with the message the source prints. -/
  | panic (msg : String)
  deriving DecidableEq, Repr

/-- The message of `unreachable!()`. -/
def unreachableMsg : String := "internal error: entered unreachable code"

/-- The message of `Option::unwrap` on `None`. -/
def unwrapNoneMsg : String := "called `Option::unwrap()` on a `None` value"

/-- The message of the flattening closure's `panic!`. -/
def duplicateEntryMsg : String := "Unhandled scenario where a duplicate entry was found"

/-- `Path::file_stem` of a file name: the name up to its last `.`, unless the
name is `..`, has no `.`, or has only a leading one. -/
def fileStem (name : String) : String :=
  if name = ".." then name
  else
    match name.toList.reverse.dropWhile (· ≠ '.') with
    | [] => name
    | _ :: before => if before = [] then name else String.ofList before.reverse

/-! ## The builder -/

/-- The search on one level, `binary_search_by(|e| e.name().cmp(&name))`. -/
def searchName (entries : List VfsEntry) (name : String) : Except Nat Nat :=
  binarySearchBy (fun e => compare e.name name) entries

/-- The search step of `add_dir` on one level: the level with a directory
`name` made when it was missing, and the index of `name` in it. -/
def ensureDir (entries : List VfsEntry) (name : String) : List VfsEntry × Nat :=
  match searchName entries name with
  | .ok index => (entries, index)
  | .error index => (entries.insertIdx index (.dir name []), index)

/-- The walk of `add_dir` from a level down the components of a path, and
then `k` on the entries of the directory it ends in: the source's callers
work on the `&mut VirtualDirectory` that `add_dir` returns. -/
def walkDir {β : Type} (k : List VfsEntry → Except BuildError (List VfsEntry × β)) :
    List VfsEntry → List String → Except BuildError (List VfsEntry × β)
  | entries, [] => k entries
  | entries, name :: rest =>
      match (ensureDir entries name).1[(ensureDir entries name).2]? with
      | some (.dir dirName sub) => do
          let (sub, b) ← walkDir k sub rest
          return ((ensureDir entries name).1.set (ensureDir entries name).2 (.dir dirName sub), b)
      | _ => .error (.panic unreachableMsg)

/-- `VfsBuilder`, with the state its add-content callback captures. -/
structure VfsBuilder (σ : Type) where
  /-- The canonical root path. -/
  rootPath : List String
  rootDir : VirtualDirectory
  currentOffset : UInt64
  /-- `file_offsets`: the offset of each checksum seen. -/
  fileOffsets : List (String × UInt64)
  callbackState : σ
  deriving DecidableEq

namespace VfsBuilder

variable {σ : Type}

/-- `VfsBuilder::new` for a canonical root path. -/
def new (rootPath : List String) (st : σ) : VfsBuilder σ where
  rootPath := rootPath
  rootDir := ⟨(rootPath.getLast?.map fileStem).getD "root", []⟩
  currentOffset := 0
  fileOffsets := []
  callbackState := st

/-- `path_relative_root`. -/
def pathRelativeRoot (b : VfsBuilder σ) (path : List String) : Except BuildError (List String) :=
  if b.rootPath.isPrefixOf path then .ok (path.drop b.rootPath.length)
  else .error (.stripRoot b.rootPath path)

/-- `add_dir`, followed by `k` on the directory it returns. -/
def addDirThen {β : Type} (b : VfsBuilder σ) (path : List String)
    (k : List VfsEntry → Except BuildError (List VfsEntry × β)) :
    Except BuildError (VfsBuilder σ × β) := do
  let rel ← b.pathRelativeRoot path
  let (entries, r) ← walkDir k b.rootDir.entries rel
  return ({ b with rootDir := { b.rootDir with entries := entries } }, r)

/-- `add_dir`. -/
def addDir (b : VfsBuilder σ) (path : List String) : Except BuildError (VfsBuilder σ) :=
  (b.addDirThen path fun entries => .ok (entries, ())).map Prod.fst

section AddFile

variable (checksum : List UInt8 → String)
  (addContent : σ → List String → String → List UInt8 → String × σ)

/-- The offset `add_file` gives a file, and `file_offsets` afterwards: a
duplicate of a file seen before reuses its offset. -/
def fileOffset (b : VfsBuilder σ) (data : List UInt8) : UInt64 × List (String × UInt64) :=
  match b.fileOffsets.lookup (checksum data) with
  | some offset => (offset, b.fileOffsets)
  | none => (b.currentOffset, (checksum data, b.currentOffset) :: b.fileOffsets)

/-- `add_file`: the add-content callback names the file's contents, unless a
file of that name is there already. -/
def addFile (b : VfsBuilder σ) (path : List String) (data : List UInt8) :
    Except BuildError (VfsBuilder σ) :=
  match path.getLast? with
  | none => .error (.panic unwrapNoneMsg)
  | some name => do
      let (offset, fileOffsets) := b.fileOffset checksum data
      let (b', st) ← { b with fileOffsets := fileOffsets }.addDirThen path.dropLast fun entries =>
        match searchName entries name with
        | .ok _ => .ok (entries, b.callbackState)
        | .error index =>
            let (key, st) := addContent b.callbackState path name data
            .ok (entries.insertIdx index (.file name offset ⟨key, UInt64.ofNat data.length⟩), st)
      return { b' with
        callbackState := st,
        currentOffset :=
          if b.currentOffset = offset then b.currentOffset + UInt64.ofNat data.length
          else b.currentOffset }

/-- `add_symlink`: nothing when the link points at itself. -/
def addSymlink (b : VfsBuilder σ) (path target : List String) :
    Except BuildError (VfsBuilder σ) := do
  let dest ← b.pathRelativeRoot target
  let rel ← b.pathRelativeRoot path
  if dest = rel then return b
  match path.getLast? with
  | none => .error (.panic unwrapNoneMsg)
  | some name =>
      (b.addDirThen path.dropLast fun entries =>
        match searchName entries name with
        | .ok _ => .error (.panic unreachableMsg)
        | .error index => .ok (entries.insertIdx index (.symlink name dest), ())).map Prod.fst

end AddFile

end VfsBuilder

/-- An entry of the file system the builder reads. -/
inductive FsNode
  | dir (name : String) (children : List FsNode)
  | file (name : String) (bytes : List UInt8)
  /-- A symlink: its target as `canonicalize_path` resolves it, and the
  target's bytes when the target is a file. -/
  | symlink (name : String) (target : Option (List String)) (targetFile : Option (List UInt8))
  /-- An entry of any other type, which the builder skips. -/
  | other (name : String)

namespace VfsBuilder

variable {σ : Type} (checksum : List UInt8 → String)
  (addContent : σ → List String → String → List UInt8 → String × σ)

mutual

/-- The loop of `add_dir_recursive_internal` over the entries `read_dir`
lists. -/
def addChildren (b : VfsBuilder σ) (path : List String) :
    List FsNode → Except BuildError (VfsBuilder σ)
  | [] => .ok b
  | node :: rest => do
      let b ← b.addChild path node
      b.addChildren path rest

/-- One entry of that loop. -/
def addChild (b : VfsBuilder σ) (path : List String) :
    FsNode → Except BuildError (VfsBuilder σ)
  | .dir name children => do
      -- the recursive `add_dir_recursive_internal(&path)`
      let b ← b.addDir (path ++ [name])
      b.addChildren (path ++ [name]) children
  | .file name bytes => b.addFile checksum addContent (path ++ [name]) bytes
  | .symlink _ none _ => .ok b
  | .symlink name (some target) targetFile =>
      match b.addSymlink (path ++ [name]) target with
      | .error (.stripRoot _ _) =>
          -- the target is outside the root: a file is inlined, anything else excluded
          match targetFile with
          | some bytes => b.addFile checksum addContent (path ++ [name]) bytes
          | none => .ok b
      | r => r
  | .other _ => .ok b

end

/-- `add_dir_recursive_internal`. -/
def addDirRecursiveInternal (b : VfsBuilder σ) (path : List String) (children : List FsNode) :
    Except BuildError (VfsBuilder σ) := do
  let b ← b.addDir path
  b.addChildren checksum addContent path children

/-- `add_dir_recursive`, given the path's canonical form. -/
def addDirRecursive (b : VfsBuilder σ) (path target : List String) (children : List FsNode) :
    Except BuildError (VfsBuilder σ) :=
  (if path ≠ target then b.addSymlink path target else .ok b) >>= fun b =>
    b.addDirRecursiveInternal checksum addContent target children

end VfsBuilder

/-! ## Flattening the registries -/

/-- `IndexMap::insert` into the `localhost` entries: a new name goes last,
and a name already there is the closure's panic. -/
def insertLocalhost (localhost : List VfsEntry) (entry : VfsEntry) :
    Except BuildError (List VfsEntry) :=
  if localhost.any (fun e => e.name == entry.name) then .error (.panic duplicateEntryMsg)
  else .ok (localhost ++ [entry])

/-- The loop of the flattening closure over the root's entries: a
directory's children go to `localhost`, anything else stays. -/
def flattenEntries :
    List VfsEntry → List VfsEntry × List VfsEntry → Except BuildError (List VfsEntry × List VfsEntry)
  | [], acc => .ok acc
  | .dir _ entries :: rest, (newEntries, localhost) => do
      let localhost ← entries.foldlM insertLocalhost localhost
      flattenEntries rest (newEntries, localhost)
  | entry :: rest, (newEntries, localhost) => flattenEntries rest (newEntries ++ [entry], localhost)

/-- The closure `build_vfs` runs on the root directory of a global-cache
build. -/
def flattenRegistries (root : VirtualDirectory) : Except BuildError VirtualDirectory := do
  let (newEntries, localhost) ← flattenEntries root.entries ([], [])
  let newEntries := newEntries ++ [.dir "localhost" localhost]
  return ⟨"node_modules", newEntries.mergeSort fun a b => a.name ≤ b.name⟩

/-- What `build_vfs` asks the managed npm resolver; each folder comes with
its canonical form and the tree under it. -/
structure NpmResolver where
  /-- `root_node_modules_path()`: the folder, canonical, is also the root. -/
  rootNodeModules : Option (List String × List FsNode)
  /-- `global_cache_root_folder()`, canonical. -/
  globalCacheRoot : List String
  /-- `resolve_pkg_folder_from_pkg_id` of each of `all_system_packages`. -/
  packageFolders : List (List String × List String × List FsNode)

section Build

variable {σ : Type} (checksum : List UInt8 → String)
  (addContent : σ → List String → String → List UInt8 → String × σ)

/-- The loop of `build_vfs` over the package folders. -/
def addPackages (b : VfsBuilder σ) :
    List (List String × List String × List FsNode) → Except BuildError (VfsBuilder σ)
  | [] => .ok b
  | (path, target, children) :: rest => do
      let b ← b.addDirRecursive checksum addContent path target children
      addPackages b rest

/-- `build_vfs`. -/
def buildVfs (npm : NpmResolver) (st : σ) : Except BuildError (VfsBuilder σ) :=
  match npm.rootNodeModules with
  | some (nodeModules, children) =>
      (VfsBuilder.new nodeModules st).addDirRecursive checksum addContent nodeModules nodeModules
        children
  | none => do
      let b ← addPackages checksum addContent (VfsBuilder.new npm.globalCacheRoot st)
        npm.packageFolders
      let rootDir ← flattenRegistries b.rootDir
      return { b with rootDir := rootDir }

end Build

/-! ## Every level sorted -/

/-- Every level of a tree of entries has strictly increasing names. -/
inductive Sorted : List VfsEntry → Prop
  | mk {entries : List VfsEntry} : entries.Pairwise (fun a b => a.name < b.name) →
      (∀ name sub, VfsEntry.dir name sub ∈ entries → Sorted sub) → Sorted entries

/-- An entry whose children, if it has any, are sorted. -/
def SortedBelow (e : VfsEntry) : Prop := ∀ name sub, e = .dir name sub → Sorted sub

namespace Sorted

theorem pairwise {entries : List VfsEntry} (h : Sorted entries) :
    entries.Pairwise (fun a b => a.name < b.name) := by
  cases h with
  | mk hp _ => exact hp

theorem sub {entries : List VfsEntry} (h : Sorted entries) {name : String} {sub : List VfsEntry}
    (hmem : VfsEntry.dir name sub ∈ entries) : Sorted sub := by
  cases h with
  | mk _ hs => exact hs name sub hmem

theorem nil : Sorted [] := ⟨List.Pairwise.nil, fun _ _ h => by cases h⟩

theorem sortedBelow {entries : List VfsEntry} (h : Sorted entries) {e : VfsEntry} (he : e ∈ entries) :
    SortedBelow e := by
  rintro name sub rfl
  exact h.sub he

/-- Inserting an entry where the search of its name failed keeps a level
sorted. -/
theorem insertIdx {entries : List VfsEntry} (h : Sorted entries) {name : String} {i : Nat}
    (hsearch : searchName entries name = .error i) {e : VfsEntry} (hname : e.name = name)
    (he : SortedBelow e) : Sorted (entries.insertIdx i e) := by
  refine ⟨pairwise_insertIdx_of_error h.pairwise hsearch hname, fun n sub hmem => ?_⟩
  rcases List.eq_or_mem_of_mem_insertIdx hmem with heq | hold
  · exact he n sub heq.symm
  · exact h.sub hold

/-- Replacing an entry by one of the same name keeps a level sorted. -/
theorem set {entries : List VfsEntry} (h : Sorted entries) {i : Nat} {e e' : VfsEntry}
    (hi : entries[i]? = some e) (hname : e'.name = e.name) (he' : SortedBelow e') :
    Sorted (entries.set i e') := by
  have hlen : i < entries.length := (List.getElem?_eq_some_iff.1 hi).1
  have hget : entries[i] = e := (List.getElem?_eq_some_iff.1 hi).2
  have hnames : (entries.set i e').map VfsEntry.name = entries.map VfsEntry.name := by
    refine List.ext_getElem (by simp) fun n _ _ => ?_
    simp only [List.getElem_map, List.getElem_set]
    split
    · rename_i hn
      subst hn
      rw [hname, hget]
    · rfl
  refine ⟨?_, fun n sub hmem => ?_⟩
  · have hp := List.pairwise_map.2 h.pairwise
    rw [← hnames] at hp
    exact List.pairwise_map.1 hp
  · rcases List.mem_or_eq_of_mem_set hmem with hold | heq
    · exact h.sub hold
    · exact he' n sub heq.symm

theorem ensureDir {entries : List VfsEntry} (h : Sorted entries) (name : String) :
    Sorted (ensureDir entries name).1 := by
  unfold Vfs.ensureDir
  cases hsearch : searchName entries name with
  | ok i => exact h
  | error i =>
      refine h.insertIdx hsearch rfl ?_
      rintro n sub ⟨⟩
      exact nil

/-- The walk of `add_dir` keeps every level sorted when what it does at the
end does. -/
theorem walkDir {β : Type} {k : List VfsEntry → Except BuildError (List VfsEntry × β)}
    (hk : ∀ entries entries' r, Sorted entries → k entries = .ok (entries', r) → Sorted entries') :
    ∀ (path : List String) {entries entries' : List VfsEntry} {r : β}, Sorted entries →
      walkDir k entries path = .ok (entries', r) → Sorted entries'
  | [], _, _, _, h, hw => hk _ _ _ h hw
  | name :: rest, entries, entries', r, h, hw => by
      have hens := h.ensureDir name
      unfold Vfs.walkDir at hw
      split at hw
      · rename_i dirName sub hget
        obtain ⟨⟨sub', r'⟩, hsub, hret⟩ := bind_eq_ok.1 hw
        cases hret
        have hsorted := walkDir hk rest (hens.sub (List.mem_of_getElem? hget)) hsub
        refine hens.set hget rfl ?_
        rintro n s ⟨⟩
        exact hsorted
      · cases hw

end Sorted

namespace VfsBuilder

variable {σ : Type} (checksum : List UInt8 → String)
  (addContent : σ → List String → String → List UInt8 → String × σ)

theorem sorted_addDirThen {β : Type} {b b' : VfsBuilder σ} {path : List String}
    {k : List VfsEntry → Except BuildError (List VfsEntry × β)} {r : β}
    (hk : ∀ entries entries' r, Sorted entries → k entries = .ok (entries', r) → Sorted entries')
    (h : Sorted b.rootDir.entries) (hb : b.addDirThen path k = .ok (b', r)) :
    Sorted b'.rootDir.entries := by
  obtain ⟨rel, -, hb⟩ := bind_eq_ok.1 hb
  obtain ⟨⟨entries, r'⟩, hw, hret⟩ := bind_eq_ok.1 hb
  cases hret
  exact Sorted.walkDir hk rel h hw

theorem sorted_addDir {b b' : VfsBuilder σ} {path : List String} (h : Sorted b.rootDir.entries)
    (hb : b.addDir path = .ok b') : Sorted b'.rootDir.entries := by
  obtain ⟨⟨b'', _⟩, hthen, rfl⟩ := map_eq_ok.1 hb
  exact sorted_addDirThen (fun _ _ _ hs hk => by cases hk; exact hs) h hthen

theorem sorted_addFile {b b' : VfsBuilder σ} {path : List String} {data : List UInt8}
    (h : Sorted b.rootDir.entries) (hb : b.addFile checksum addContent path data = .ok b') :
    Sorted b'.rootDir.entries := by
  unfold addFile at hb
  split at hb
  · cases hb
  · rename_i name _
    obtain ⟨⟨b'', st⟩, hthen, hret⟩ := bind_eq_ok.1 hb
    cases hret
    show Sorted b''.rootDir.entries
    refine sorted_addDirThen ?_ ?_ hthen
    · intro entries entries' r hs hk
      split at hk
      · cases hk
        exact hs
      · rename_i index hsearch
        cases hk
        refine hs.insertIdx hsearch rfl ?_
        rintro n sub ⟨⟩
    · exact h

theorem sorted_addSymlink {b b' : VfsBuilder σ} {path target : List String}
    (h : Sorted b.rootDir.entries) (hb : b.addSymlink path target = .ok b') :
    Sorted b'.rootDir.entries := by
  unfold addSymlink at hb
  obtain ⟨dest, -, hb⟩ := bind_eq_ok.1 hb
  obtain ⟨rel, -, hb⟩ := bind_eq_ok.1 hb
  split at hb
  · cases hb
    exact h
  · split at hb
    · cases hb
    · rename_i name _
      obtain ⟨⟨b'', _⟩, hthen, rfl⟩ := map_eq_ok.1 hb
      refine sorted_addDirThen (fun entries entries' r hs hk => ?_) h hthen
      split at hk
      · cases hk
      · rename_i index hsearch
        cases hk
        refine hs.insertIdx hsearch rfl ?_
        rintro n sub ⟨⟩

mutual

theorem sorted_addChildren {b b' : VfsBuilder σ} {path : List String} :
    ∀ {children : List FsNode}, Sorted b.rootDir.entries →
      b.addChildren checksum addContent path children = .ok b' → Sorted b'.rootDir.entries
  | [], h, hb => by
      cases hb
      exact h
  | node :: rest, h, hb => by
      obtain ⟨b1, h1, hrest⟩ := bind_eq_ok.1 hb
      exact sorted_addChildren (sorted_addChild h h1) hrest

theorem sorted_addChild {b b' : VfsBuilder σ} {path : List String} :
    ∀ {node : FsNode}, Sorted b.rootDir.entries →
      b.addChild checksum addContent path node = .ok b' → Sorted b'.rootDir.entries
  | .dir name children, h, hb => by
      obtain ⟨b1, h1, hrest⟩ := bind_eq_ok.1 hb
      exact sorted_addChildren (sorted_addDir h h1) hrest
  | .file name bytes, h, hb => sorted_addFile checksum addContent h hb
  | .symlink _ none _, h, hb => by
      cases hb
      exact h
  | .symlink name (some target) targetFile, h, hb => by
      unfold addChild at hb
      split at hb
      · split at hb
        · exact sorted_addFile checksum addContent h hb
        · cases hb
          exact h
      · rename_i r hr
        exact sorted_addSymlink h hb
  | .other _, h, hb => by
      cases hb
      exact h

end

theorem sorted_addDirRecursive {b b' : VfsBuilder σ} {path target : List String}
    {children : List FsNode} (h : Sorted b.rootDir.entries)
    (hb : b.addDirRecursive checksum addContent path target children = .ok b') :
    Sorted b'.rootDir.entries := by
  unfold addDirRecursive at hb
  obtain ⟨b1, h1, hb⟩ := bind_eq_ok.1 hb
  have hs1 : Sorted b1.rootDir.entries := by
    split at h1
    · exact sorted_addSymlink h h1
    · cases h1
      exact h
  obtain ⟨b2, h2, hb⟩ := bind_eq_ok.1 hb
  exact sorted_addChildren checksum addContent (sorted_addDir hs1 h2) hb

end VfsBuilder

section Build

variable {σ : Type} (checksum : List UInt8 → String)
  (addContent : σ → List String → String → List UInt8 → String × σ)

/-- Without flattening, every level `build_vfs` makes is sorted. -/
theorem sorted_buildVfs_nodeModules {npm : NpmResolver} {st : σ} {b : VfsBuilder σ}
    {nodeModules : List String} {children : List FsNode}
    (hnm : npm.rootNodeModules = some (nodeModules, children))
    (h : buildVfs checksum addContent npm st = .ok b) : Sorted b.rootDir.entries := by
  unfold buildVfs at h
  rw [hnm] at h
  exact VfsBuilder.sorted_addDirRecursive checksum addContent Sorted.nil h

end Build

end EdgeRuntime.Vfs
