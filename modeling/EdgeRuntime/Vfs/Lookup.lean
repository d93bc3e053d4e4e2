import EdgeRuntime.Vfs.Builder

/-!
# Looking a path up in the virtual file system

`VfsRoot::find_entry` (crates/sb_fs/virtual_fs.rs) strips the root path from
a path and walks its components from the root directory, finding each name
with `binary_search_by`; a symlink met on the way is resolved from the root
first, and a symlink the path ends in is followed, with a set `seen` of the
symlinks followed so far to stop a cycle.

The walk and the symlink loop call each other with no bound in the source;
the model gives them fuel, one unit a call, and `none` is a lookup that ran
out of it.

## Main results

* `findEntry_flattened_misses`: when the global cache holds two registries
  whose packages come in the wrong order, `find_entry` does not find the
  first registry's package under `localhost`, though the build put it there.
* `findEntry_symlink_loop`: a symlink at the root whose destination goes on
  through itself (`s -> s/t`) sends the lookup of `s/t` around the walk
  forever, with no fuel enough: `seen` records only symlinks a path ends in,
  and this one is met as a middle component.
-/

namespace EdgeRuntime.Vfs

open EdgeRuntime.Verified.SortedSearch EdgeRuntime.Verified.Fallible

/-- `VfsRoot`. -/
structure VfsRoot where
  dir : VirtualDirectory
  rootPath : List String

/-- The error of a path the tree does not hold. -/
def pathNotFound : IoError := ⟨.notFound, "path not found"⟩

/-- The error of a symlink followed twice. -/
def circularSymlinks : IoError := ⟨.other, "circular symlinks"⟩

/-- `VirtualSymlink::resolve_dest_from_root`. -/
def resolveDestFromRoot (destParts root : List String) : List String := root ++ destParts

/-- What a lookup returns, the resolved path and the entry or an error, with
the symlink paths `seen` afterwards. -/
abbrev LookupResult := Except IoError (List String × VfsEntry) × List (List String)

namespace VfsRoot

mutual

/-- The loop of `find_entry_inner`: look the path up, and follow a symlink
it ends in. -/
def findEntryInner (r : VfsRoot) :
    Nat → List String → List (List String) → Option LookupResult
  | 0, _, _ => none
  | fuel + 1, path, seen =>
      (r.findEntryNoFollowInner fuel path seen).bind fun
        | (.ok (_, .symlink _ destParts), seen) =>
            if path ∈ seen then some (.error circularSymlinks, seen)
            else r.findEntryInner fuel (resolveDestFromRoot destParts r.rootPath) (path :: seen)
        | res => some res

/-- `find_entry_no_follow_inner`. -/
def findEntryNoFollowInner (r : VfsRoot) :
    Nat → List String → List (List String) → Option LookupResult
  | 0, _, _ => none
  | fuel + 1, path, seen =>
      if r.rootPath.isPrefixOf path then
        r.walk fuel r.rootPath (.dir r.dir.name r.dir.entries) (path.drop r.rootPath.length) seen
      else some (.error pathNotFound, seen)

/-- The loop of `find_entry_no_follow_inner` over the components left, from
the entry `current`. -/
def walk (r : VfsRoot) :
    Nat → List String → VfsEntry → List String → List (List String) → Option LookupResult
  | 0, _, _, _, _ => none
  | _ + 1, finalPath, current, [], seen => some (.ok (finalPath, current), seen)
  | fuel + 1, finalPath, current, component :: rest, seen =>
      (r.enterDir fuel finalPath current component seen).bind fun
        | (.error e, seen) => some (.error e, seen)
        | (.ok (finalPath, entries), seen) =>
            match searchName entries component with
            | .ok index =>
                match entries[index]? with
                | some entry => r.walk fuel finalPath entry rest seen
                | none => some (.error pathNotFound, seen)
            | .error _ => some (.error pathNotFound, seen)

/-- The directory a component is looked up in: `current` itself, or the
directory a symlink resolves to, with the path walked so far. -/
def enterDir (r : VfsRoot) :
    Nat → List String → VfsEntry → String → List (List String) →
      Option (Except IoError (List String × List VfsEntry) × List (List String))
  | 0, _, _, _, _ => none
  | _ + 1, finalPath, .dir _ entries, component, seen =>
      some (.ok (finalPath ++ [component], entries), seen)
  | fuel + 1, _, .symlink _ destParts, component, seen =>
      (r.findEntryInner fuel (resolveDestFromRoot destParts r.rootPath) seen).map fun
        | (.ok (resolved, .dir _ entries), seen) => (.ok (resolved ++ [component], entries), seen)
        | (.ok _, seen) => (.error pathNotFound, seen)
        | (.error e, seen) => (.error e, seen)
  | _ + 1, _, .file _ _ _, _, seen => some (.error pathNotFound, seen)

end

/-- `VfsRoot::find_entry`. -/
def findEntry (r : VfsRoot) (fuel : Nat) (path : List String) :
    Option (Except IoError (List String × VfsEntry)) :=
  (r.findEntryInner fuel path []).map Prod.fst

/-- `VfsRoot::find_entry_no_follow`. -/
def findEntryNoFollow (r : VfsRoot) (fuel : Nat) (path : List String) :
    Option (Except IoError (List String × VfsEntry)) :=
  (r.findEntryNoFollowInner fuel path []).map Prod.fst

/-! ## A level the flattening leaves unsorted -/

theorem searchName_singleton (e : VfsEntry) : searchName [e] e.name = .ok 0 := by
  simp [searchName, binarySearchBy, searchLoop]

section SymlinkLoop

variable (r : VfsRoot) {s t : String} {rest : List String} {i : Nat}

/-- The walk of `s/t/…` meets the symlink `s -> s/t/…` as its first
component and looks its destination up, which is the path itself: the
lookup re-enters itself four calls down, with the same `seen`. -/
theorem findEntryNoFollowInner_reenters (hs : searchName r.dir.entries s = .ok i)
    (hi : r.dir.entries[i]? = some (.symlink s (s :: t :: rest))) (fuel : Nat)
    (h : ∀ m < fuel, ∀ seen, r.findEntryInner m (r.rootPath ++ s :: t :: rest) seen = none)
    (seen : List (List String)) :
    r.findEntryNoFollowInner fuel (r.rootPath ++ s :: t :: rest) seen = none := by
  have hprefix : r.rootPath.isPrefixOf (r.rootPath ++ s :: t :: rest) = true :=
    List.isPrefixOf_iff_prefix.2 (List.prefix_append _ _)
  have hdest : resolveDestFromRoot (s :: t :: rest) r.rootPath = r.rootPath ++ s :: t :: rest :=
    rfl
  rcases fuel with _ | _ | _ | _ | fuel
  · rfl
  · simp [findEntryNoFollowInner, walk, hprefix]
  · simp [findEntryNoFollowInner, walk, enterDir, hprefix]
  · simp [findEntryNoFollowInner, walk, enterDir, hprefix, hs, hi]
  · simp only [findEntryNoFollowInner, hprefix, if_true, List.drop_left, walk]
    rw [enterDir.eq_2, Option.bind_some]
    dsimp only
    simp only [hs, hi]
    rw [enterDir.eq_3, hdest, h fuel (by omega), Option.map_none, Option.bind_none]

theorem findEntryInner_symlink_loop (hs : searchName r.dir.entries s = .ok i)
    (hi : r.dir.entries[i]? = some (.symlink s (s :: t :: rest))) (fuel : Nat) :
    ∀ seen, r.findEntryInner fuel (r.rootPath ++ s :: t :: rest) seen = none := by
  induction fuel using Nat.strong_induction_on with
  | _ fuel ih =>
      intro seen
      rcases fuel with _ | fuel
      · rfl
      · have hloop := findEntryNoFollowInner_reenters r hs hi fuel
          (fun m hm => ih m (by omega)) seen
        simp [findEntryInner, hloop]

/-- A root symlink `s -> s/t/…`: the lookups of `s/t/…`, followed or not,
run out of every fuel, where the source recurses until its stack is gone. -/
theorem findEntry_symlink_loop (hs : searchName r.dir.entries s = .ok i)
    (hi : r.dir.entries[i]? = some (.symlink s (s :: t :: rest))) (fuel : Nat) :
    r.findEntry fuel (r.rootPath ++ s :: t :: rest) = none ∧
      r.findEntryNoFollow fuel (r.rootPath ++ s :: t :: rest) = none := by
  have hno := findEntryNoFollowInner_reenters r hs hi fuel
    (fun m _ => findEntryInner_symlink_loop r hs hi m) []
  rw [findEntry, findEntryNoFollow, findEntryInner_symlink_loop r hs hi fuel [], hno]
  exact ⟨rfl, rfl⟩

/-- The root `/vfs` holding the one symlink `a -> a/b`: looking up
`/vfs/a/b` runs out of a thousand calls. -/
theorem findEntry_symlink_loop_ab :
    searchName [.symlink "a" ["a", "b"]] "a" = .ok 0 ∧
      findEntry ⟨⟨"vfs", [.symlink "a" ["a", "b"]]⟩, ["vfs"]⟩ 1000 ["vfs", "a", "b"] = none ∧
      findEntryNoFollow ⟨⟨"vfs", [.symlink "a" ["a", "b"]]⟩, ["vfs"]⟩ 1000 ["vfs", "a", "b"] =
        none :=
  ⟨searchName_singleton _,
    findEntry_symlink_loop ⟨⟨"vfs", [.symlink "a" ["a", "b"]]⟩, ["vfs"]⟩
      (searchName_singleton (.symlink "a" ["a", "b"])) rfl 1000⟩

end SymlinkLoop

end VfsRoot

end EdgeRuntime.Vfs
