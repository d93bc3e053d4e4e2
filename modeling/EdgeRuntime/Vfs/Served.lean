import EdgeRuntime.Vfs.RoundTrip

/-!
# Every file of a package folder is served

`add_dir_recursive` (crates/sb_fs/virtual_fs.rs) adds a folder's entries one
after another, each below its own name.  An add walks `add_dir` down its
path, and the walk changes `find?` on each level it passes only for the name
it goes on by (`touchesOnly_walkDir`), so it changes no path that leaves its
own at some component (`entryAt_walkDir_of_ne`).  Every add inside one entry
of a folder thus leaves the folder's other entries as they were (`Outside`),
and a file added first is still there when the last entry is added.

A `node_modules` build (`build_vfs`, crates/sb_fs/lib.rs) adds one folder
from a file system whose directories list each name once.  It puts every
regular file of the folder at its path, where `find_entry` finds it once
`load_npm_vfs` serves the tree.  What the add-content callback stores is
followed along (`ContentStore`): each file's key is one under which the
callback's state, at the end of the build, still holds the file's bytes.

## Main results

* `findEntry_buildVfs`: after a `node_modules` build, `find_entry` of the
  runtime's root followed by the path of any regular file of the folder
  returns that file, with its name and length.
* `findEntry_buildVfs_stored`: the same, with the file's bytes stored under
  its key by any callback that keeps what it stores.
-/

namespace EdgeRuntime.Vfs

open EdgeRuntime.Verified.SortedSearch EdgeRuntime.Verified.Fallible

/-! ## A walk changes one name on each level -/

/-- A path below a name reads the level only through what `find?` finds by
that name. -/
theorem entryAt_cons_congr {l l' : List VfsEntry} {y : String}
    (h : l'.find? (fun e => e.name = y) = l.find? (fun e => e.name = y)) (q : List String) :
    entryAt l' (y :: q) = entryAt l (y :: q) := by
  cases q with
  | nil => rw [entryAt_singleton, entryAt_singleton, h]
  | cons c q' =>
      by_cases hdir : ∃ d sub, l.find? (fun e => e.name = y) = some (.dir d sub)
      · obtain ⟨d, sub, hfind⟩ := hdir
        rw [entryAt_cons_dir (List.cons_ne_nil _ _) (h.trans hfind),
          entryAt_cons_dir (List.cons_ne_nil _ _) hfind]
      · push Not at hdir
        rw [entryAt_cons_of_not_dir (List.cons_ne_nil _ _) (by rwa [h]),
          entryAt_cons_of_not_dir (List.cons_ne_nil _ _) hdir]

/-- Nothing at a path means nothing below it. -/
theorem entryAt_append_of_eq_none (q : List String) :
    ∀ {entries : List VfsEntry} {P : List String}, P ≠ [] → entryAt entries P = none →
      entryAt entries (P ++ q) = none
  | _, [], hP, _ => absurd rfl hP
  | entries, c :: P', _, hnone => by
      by_cases hP' : P' = []
      · subst hP'
        rw [entryAt_singleton] at hnone
        exact entryAt_cons_of_find?_eq_none hnone
      · have hne : P' ++ q ≠ [] := by simp [hP']
        by_cases hdir : ∃ d sub, entries.find? (fun e => e.name = c) = some (.dir d sub)
        · obtain ⟨d, sub, hfind⟩ := hdir
          rw [entryAt_cons_dir hP' hfind] at hnone
          rw [List.cons_append, entryAt_cons_dir hne hfind]
          exact entryAt_append_of_eq_none q hP' hnone
        · push Not at hdir
          exact entryAt_cons_of_not_dir hne hdir

/-- What a step at the end of a walk does to the level it reaches changes
`find?` there only for the name `n`. -/
def TouchesOnly {β : Type} (n : String)
    (k : List VfsEntry → Except BuildError (List VfsEntry × β)) : Prop :=
  ∀ leaf leaf' r, k leaf = .ok (leaf', r) → ∀ y, y ≠ n →
    leaf'.find? (fun e => e.name = y) = leaf.find? (fun e => e.name = y)

theorem decide_name_eq_false {e : VfsEntry} {n y : String} (he : e.name = n) (hy : y ≠ n) :
    decide (e.name = y) = false := by
  rw [he]
  exact decide_eq_false fun h => hy h.symm

theorem find?_insertIdx_of_ne {entries : List VfsEntry} {i : Nat} {e : VfsEntry} {y : String}
    (hy : y ≠ e.name) :
    (entries.insertIdx i e).find? (fun x => x.name = y) = entries.find? (fun x => x.name = y) :=
  find?_insertIdx_of_not (p := fun x : VfsEntry => decide (x.name = y)) (decide_name_eq_false rfl hy) entries i

theorem find?_ensureDir_of_ne {entries : List VfsEntry} {x y : String} (hy : y ≠ x) :
    (ensureDir entries x).1.find? (fun e => e.name = y) = entries.find? (fun e => e.name = y) := by
  unfold ensureDir
  cases searchName entries x with
  | ok i => rfl
  | error i => exact find?_insertIdx_of_ne hy

/-- The entry at the index `ensureDir` returns has the name asked for, on any
level: the one the search found, or the directory it made. -/
theorem name_ensureDir {entries : List VfsEntry} {name : String} {e : VfsEntry}
    (he : (ensureDir entries name).1[(ensureDir entries name).2]? = some e) : e.name = name := by
  unfold ensureDir at he
  cases hsearch : searchName entries name with
  | ok i =>
      simp only [hsearch] at he
      obtain ⟨x, hx, hcmp⟩ := binarySearchBy_ok hsearch
      rw [hx] at he
      cases he
      exact compare_eq_iff_eq.1 hcmp
  | error i =>
      simp only [hsearch, List.getElem?_insertIdx_self] at he
      split at he
      · cases he
        rfl
      · cases he

/-- Walking on from a level into the directory `x` changes `find?` there only
for `x`: `ensureDir` inserts a directory named `x` or nothing, and the walk
puts back one of that name. -/
theorem touchesOnly_walkDir {β : Type} (k : List VfsEntry → Except BuildError (List VfsEntry × β))
    (x : String) (s : List String) : TouchesOnly x (fun leaf => walkDir k leaf (x :: s)) := by
  intro leaf leaf' r hw y hy
  beta_reduce at hw
  unfold walkDir at hw
  split at hw
  · rename_i dirName sub hget
    obtain ⟨⟨sub', r'⟩, -, hret⟩ := bind_eq_ok.1 hw
    cases hret
    have hname := name_ensureDir hget
    have hold : ∀ z, (ensureDir leaf x).1[(ensureDir leaf x).2]? = some z →
        decide (z.name = y) = false := by
      intro z hz
      rw [hget] at hz
      cases hz
      exact decide_name_eq_false hname hy
    have hnew : decide ((VfsEntry.dir dirName sub').name = y) = false := decide_name_eq_false hname hy
    rw [find?_set_of_not (p := fun e : VfsEntry => decide (e.name = y)) hnew _ _ hold,
      find?_ensureDir_of_ne hy]
  · cases hw

/-- A walk down `rel` that ends with a step touching only `x` changes no path
that leaves `rel` by another name. -/
theorem entryAt_walkDir_of_touchesOnly {β : Type}
    {k : List VfsEntry → Except BuildError (List VfsEntry × β)} {x : String} (hk : TouchesOnly x k)
    {rel : List String} {entries entries' : List VfsEntry} {r : β} (h : Sorted entries)
    (hw : walkDir k entries rel = .ok (entries', r)) {y : String} (hy : y ≠ x) (q : List String) :
    entryAt entries' (rel ++ y :: q) = entryAt entries (rel ++ y :: q) := by
  obtain ⟨leaf, leaf', -, hleaf, hbefore, hafter⟩ := entryAt_walkDir rel h hw
  rw [hafter _ (List.cons_ne_nil _ _), ← hbefore _ (List.cons_ne_nil _ _)]
  exact entryAt_cons_congr (hk leaf leaf' r hleaf y hy) q

theorem walkDir_append {β : Type} (k : List VfsEntry → Except BuildError (List VfsEntry × β))
    (s rel : List String) :
    ∀ entries, walkDir k entries (rel ++ s) = walkDir (fun leaf => walkDir k leaf s) entries rel := by
  induction rel with
  | nil =>
      intro entries
      rfl
  | cons name rest ih =>
      intro entries
      simp only [List.cons_append, walkDir, ih]

/-- Whatever a walk returns beside the entries, `k` returned on some level. -/
theorem exists_of_walkDir_ok {β : Type} {k : List VfsEntry → Except BuildError (List VfsEntry × β)} :
    ∀ (rel : List String) {entries entries' : List VfsEntry} {r : β},
      walkDir k entries rel = .ok (entries', r) → ∃ leaf leaf', k leaf = .ok (leaf', r)
  | [], entries, _, _, hw => ⟨entries, _, hw⟩
  | name :: rest, entries, entries', r, hw => by
      unfold walkDir at hw
      split at hw
      · obtain ⟨⟨sub', r'⟩, hsub, hret⟩ := bind_eq_ok.1 hw
        cases hret
        exact exists_of_walkDir_ok rest hsub
      · cases hw

/-- A walk down `rel` and on into `x` changes no path that leaves `rel` by
another name. -/
theorem entryAt_walkDir_of_ne {β : Type} {k : List VfsEntry → Except BuildError (List VfsEntry × β)}
    {rel s : List String} {x : String} {entries entries' : List VfsEntry} {r : β} (h : Sorted entries)
    (hw : walkDir k entries (rel ++ x :: s) = .ok (entries', r)) {y : String} (hy : y ≠ x)
    (q : List String) : entryAt entries' (rel ++ y :: q) = entryAt entries (rel ++ y :: q) := by
  rw [walkDir_append] at hw
  exact entryAt_walkDir_of_touchesOnly (touchesOnly_walkDir k x s) h hw hy q

/-- A walk to `D` whose last step touches only `n` changes no path that
leaves `D ++ [n]` at some component. -/
theorem entryAt_walkDir_of_append {β : Type}
    {k : List VfsEntry → Except BuildError (List VfsEntry × β)} {D : List String} {n : String}
    (hk : TouchesOnly n k) {entries entries' : List VfsEntry} {r : β} (h : Sorted entries)
    (hw : walkDir k entries D = .ok (entries', r)) {rel s : List String} {x : String}
    (hD : D ++ [n] = rel ++ x :: s) {y : String} (hy : y ≠ x) (q : List String) :
    entryAt entries' (rel ++ y :: q) = entryAt entries (rel ++ y :: q) := by
  rcases List.eq_nil_or_concat s with rfl | ⟨s', z, rfl⟩
  · -- the step's own level: `D = rel` and `n = x`
    obtain ⟨rfl, hn⟩ := List.append_inj' hD rfl
    cases hn
    exact entryAt_walkDir_of_touchesOnly hk h hw hy q
  · -- a level below `rel ++ [x]`
    have hD' : D ++ [n] = (rel ++ x :: s') ++ [z] := by simp [hD]
    obtain ⟨rfl, -⟩ := List.append_inj' hD' rfl
    exact entryAt_walkDir_of_ne h hw hy q

/-! ## What each add leaves alone -/

namespace VfsBuilder

variable {σ : Type} (checksum : List UInt8 → String)
  (addContent : σ → List String → String → List UInt8 → String × σ)

/-- `b'` holds what `b` holds at every path that leaves `rel` by a name
other than `x`. -/
def Outside (b b' : VfsBuilder σ) (rel : List String) (x : String) : Prop :=
  ∀ y, y ≠ x → ∀ q,
    entryAt b'.rootDir.entries (rel ++ y :: q) = entryAt b.rootDir.entries (rel ++ y :: q)

theorem Outside.refl (b : VfsBuilder σ) (rel : List String) (x : String) : Outside b b rel x :=
  fun _ _ _ => rfl

theorem Outside.trans {b₁ b₂ b₃ : VfsBuilder σ} {rel : List String} {x : String}
    (h₁ : Outside b₁ b₂ rel x) (h₂ : Outside b₂ b₃ rel x) : Outside b₁ b₃ rel x :=
  fun y hy q => (h₂ y hy q).trans (h₁ y hy q)

theorem rootPath_addDirThen {β : Type} {b b' : VfsBuilder σ} {path : List String}
    {k : List VfsEntry → Except BuildError (List VfsEntry × β)} {r : β}
    (hb : b.addDirThen path k = .ok (b', r)) : b'.rootPath = b.rootPath := by
  obtain ⟨rel, -, hb⟩ := bind_eq_ok.1 hb
  obtain ⟨⟨entries, r'⟩, -, hret⟩ := bind_eq_ok.1 hb
  cases hret
  rfl

theorem rootPath_addDir {b b' : VfsBuilder σ} {path : List String} (hb : b.addDir path = .ok b') :
    b'.rootPath = b.rootPath := by
  obtain ⟨⟨b'', u⟩, hthen, rfl⟩ := map_eq_ok.1 hb
  exact rootPath_addDirThen hthen

theorem rootPath_addFile {b b' : VfsBuilder σ} {path : List String} {data : List UInt8}
    (hb : b.addFile checksum addContent path data = .ok b') : b'.rootPath = b.rootPath := by
  unfold addFile at hb
  split at hb
  · cases hb
  · obtain ⟨⟨b'', st⟩, hthen, hret⟩ := bind_eq_ok.1 hb
    cases hret
    have hroot := rootPath_addDirThen hthen
    exact hroot

theorem rootPath_addSymlink {b b' : VfsBuilder σ} {path target : List String}
    (hb : b.addSymlink path target = .ok b') : b'.rootPath = b.rootPath := by
  unfold addSymlink at hb
  obtain ⟨dest, -, hb⟩ := bind_eq_ok.1 hb
  obtain ⟨rel, -, hb⟩ := bind_eq_ok.1 hb
  split at hb
  · cases hb
    rfl
  · split at hb
    · cases hb
    · obtain ⟨⟨b'', u⟩, hthen, rfl⟩ := map_eq_ok.1 hb
      exact rootPath_addDirThen hthen

/-- `add_dir` of a path below the root walks the path relative to it. -/
theorem addDir_walk {b b' : VfsBuilder σ} {D : List String}
    (hb : b.addDir (b.rootPath ++ D) = .ok b') :
    walkDir (fun entries => .ok (entries, ())) b.rootDir.entries D = .ok (b'.rootDir.entries, ()) := by
  obtain ⟨⟨b'', u⟩, hthen, rfl⟩ := map_eq_ok.1 hb
  exact walkDir_of_addDirThen hthen

/-- `add_file` of a path below the root walks to the file's directory, and
changes `find?` there only for the file's name. -/
theorem addFile_walk {b b' : VfsBuilder σ} {D : List String} {n : String} {data : List UInt8}
    (hb : b.addFile checksum addContent (b.rootPath ++ D ++ [n]) data = .ok b') :
    ∃ (k : List VfsEntry → Except BuildError (List VfsEntry × σ)) (r : σ),
      TouchesOnly n k ∧ walkDir k b.rootDir.entries D = .ok (b'.rootDir.entries, r) := by
  unfold addFile at hb
  rw [List.getLast?_concat, List.dropLast_concat] at hb
  obtain ⟨⟨b'', st⟩, hthen, hret⟩ := bind_eq_ok.1 hb
  cases hret
  have hw := walkDir_of_addDirThen hthen
  refine ⟨_, _, ?_, hw⟩
  intro leaf leaf' r hk y hy
  beta_reduce at hk
  cases hsearch : searchName leaf n with
  | ok i =>
      rw [hsearch] at hk
      cases hk
      rfl
  | error i =>
      rw [hsearch] at hk
      cases hk
      exact find?_insertIdx_of_ne hy

/-- `add_symlink` of a path below the root does nothing, or walks to the
link's directory and changes `find?` there only for the link's name. -/
theorem addSymlink_walk {b b' : VfsBuilder σ} {D : List String} {n : String}
    {target : List String} (hb : b.addSymlink (b.rootPath ++ D ++ [n]) target = .ok b') :
    b' = b ∨ ∃ (k : List VfsEntry → Except BuildError (List VfsEntry × Unit)) (r : Unit),
      TouchesOnly n k ∧ walkDir k b.rootDir.entries D = .ok (b'.rootDir.entries, r) := by
  unfold addSymlink at hb
  obtain ⟨dest, -, hb⟩ := bind_eq_ok.1 hb
  obtain ⟨rel, -, hb⟩ := bind_eq_ok.1 hb
  split at hb
  · cases hb
    exact .inl rfl
  · rw [List.getLast?_concat, List.dropLast_concat] at hb
    obtain ⟨⟨b'', u⟩, hthen, rfl⟩ := map_eq_ok.1 hb
    have hw := walkDir_of_addDirThen hthen
    refine .inr ⟨_, _, ?_, hw⟩
    intro leaf leaf' r hk y hy
    beta_reduce at hk
    cases hsearch : searchName leaf n with
    | ok i =>
        rw [hsearch] at hk
        cases hk
    | error i =>
        rw [hsearch] at hk
        cases hk
        exact find?_insertIdx_of_ne hy

variable {b b' : VfsBuilder σ} {rel s : List String} {x : String}

theorem outside_addDir {D : List String} (h : Sorted b.rootDir.entries)
    (hb : b.addDir (b.rootPath ++ D) = .ok b') (hD : D = rel ++ x :: s) : Outside b b' rel x := by
  subst hD
  exact fun y hy q => entryAt_walkDir_of_ne h (addDir_walk hb) hy q

theorem outside_addFile {D : List String} {n : String} {data : List UInt8}
    (h : Sorted b.rootDir.entries)
    (hb : b.addFile checksum addContent (b.rootPath ++ D ++ [n]) data = .ok b')
    (hD : D ++ [n] = rel ++ x :: s) : Outside b b' rel x := by
  obtain ⟨k, r, hk, hw⟩ := addFile_walk checksum addContent hb
  exact fun y hy q => entryAt_walkDir_of_append hk h hw hD hy q

theorem outside_addSymlink {D : List String} {n : String} {target : List String}
    (h : Sorted b.rootDir.entries) (hb : b.addSymlink (b.rootPath ++ D ++ [n]) target = .ok b')
    (hD : D ++ [n] = rel ++ x :: s) : Outside b b' rel x := by
  rcases addSymlink_walk hb with rfl | ⟨k, r, hk, hw⟩
  · exact Outside.refl _ _ _
  · exact fun y hy q => entryAt_walkDir_of_append hk h hw hD hy q

/-- `add_dir` of a path below the root changes nothing below that path. -/
theorem entryAt_addDir_below {D : List String} (h : Sorted b.rootDir.entries)
    (hb : b.addDir (b.rootPath ++ D) = .ok b') {p : List String} (hp : p ≠ []) :
    entryAt b'.rootDir.entries (D ++ p) = entryAt b.rootDir.entries (D ++ p) := by
  obtain ⟨leaf, leaf', -, hk, hbefore, hafter⟩ := entryAt_walkDir D h (addDir_walk hb)
  cases hk
  rw [hafter p hp, hbefore p hp]

end VfsBuilder

/-! ## Adding a folder -/

/-- The name `read_dir` lists an entry of the file system by. -/
def FsNode.name : FsNode → String
  | .dir name _ => name
  | .file name _ => name
  | .symlink name _ _ => name
  | .other name => name

/-- Every directory of a tree lists each name once, as a file system's do. -/
inductive UniqueNames : List FsNode → Prop
  | mk {children : List FsNode} : (children.map FsNode.name).Nodup →
      (∀ name sub, FsNode.dir name sub ∈ children → UniqueNames sub) → UniqueNames children

theorem UniqueNames.cons {node : FsNode} {rest : List FsNode} (h : UniqueNames (node :: rest)) :
    node.name ∉ rest.map FsNode.name ∧ UniqueNames rest ∧
      ∀ name sub, node = .dir name sub → UniqueNames sub := by
  cases h with
  | mk hnodup hsub =>
      rw [List.map_cons, List.nodup_cons] at hnodup
      refine ⟨hnodup.1, ⟨hnodup.2, fun name sub hmem => hsub name sub (List.mem_cons_of_mem _ hmem)⟩,
        fun name sub hnode => hsub name sub ?_⟩
      rw [← hnode]
      exact List.mem_cons_self

/-- `FileAt children dir name bytes`: the tree holds a regular file `name`
with `bytes` in its directory `dir`. -/
inductive FileAt : List FsNode → List String → String → List UInt8 → Prop
  | file {children : List FsNode} {name : String} {bytes : List UInt8} :
      FsNode.file name bytes ∈ children → FileAt children [] name bytes
  | dir {children : List FsNode} {dirName : String} {sub : List FsNode} {dir : List String}
      {name : String} {bytes : List UInt8} :
      FsNode.dir dirName sub ∈ children → FileAt sub dir name bytes →
        FileAt children (dirName :: dir) name bytes

namespace FileAt

variable {node : FsNode} {rest : List FsNode} {dir : List String} {name : String}
  {bytes : List UInt8}

theorem cons_cases (h : FileAt (node :: rest) dir name bytes) :
    FileAt [node] dir name bytes ∨ FileAt rest dir name bytes := by
  cases h with
  | file hmem =>
      rcases List.mem_cons.1 hmem with rfl | hmem
      · exact .inl (.file (List.mem_singleton_self _))
      · exact .inr (.file hmem)
  | dir hmem hsub =>
      rcases List.mem_cons.1 hmem with rfl | hmem
      · exact .inl (.dir (List.mem_singleton_self _) hsub)
      · exact .inr (.dir hmem hsub)

/-- A file of one entry of a folder is below that entry's name. -/
theorem path_singleton (h : FileAt [node] dir name bytes) : ∃ q, dir ++ [name] = node.name :: q := by
  cases h with
  | file hmem =>
      rw [List.mem_singleton] at hmem
      subst hmem
      exact ⟨[], rfl⟩
  | dir hmem hsub =>
      rw [List.mem_singleton] at hmem
      subst hmem
      exact ⟨_, rfl⟩

end FileAt

namespace VfsBuilder

variable {σ : Type} (checksum : List UInt8 → String)
  (addContent : σ → List String → String → List UInt8 → String × σ)

mutual

theorem rootPath_addChildren {b b' : VfsBuilder σ} {path : List String} :
    ∀ {children : List FsNode}, b.addChildren checksum addContent path children = .ok b' →
      b'.rootPath = b.rootPath
  | [], hb => by
      cases hb
      rfl
  | node :: rest, hb => by
      obtain ⟨b1, h1, hrest⟩ := bind_eq_ok.1 hb
      rw [rootPath_addChildren hrest, rootPath_addChild h1]

theorem rootPath_addChild {b b' : VfsBuilder σ} {path : List String} :
    ∀ {node : FsNode}, b.addChild checksum addContent path node = .ok b' → b'.rootPath = b.rootPath
  | .dir name children, hb => by
      obtain ⟨b1, h1, hrest⟩ := bind_eq_ok.1 hb
      rw [rootPath_addChildren hrest, rootPath_addDir h1]
  | .file name bytes, hb => rootPath_addFile checksum addContent hb
  | .symlink _ none _, hb => by
      cases hb
      rfl
  | .symlink name (some target) targetFile, hb => by
      unfold addChild at hb
      split at hb
      · split at hb
        · exact rootPath_addFile checksum addContent hb
        · cases hb
          rfl
      · exact rootPath_addSymlink hb
  | .other _, hb => by
      cases hb
      rfl

end

/-! ## What the add-content callback stores -/

/-- The add-content callback stores the contents it is given under the key
it returns, and keeps what it stored before: `Stores st key data` says the
state `st` holds `data` under `key`. -/
structure ContentStore (Stores : σ → String → List UInt8 → Prop) : Prop where
  added : ∀ st path name data,
    Stores (addContent st path name data).2 (addContent st path name data).1 data
  kept : ∀ st path name data key old,
    Stores st key old → Stores (addContent st path name data).2 key old

/-- Whatever the callback's state in `b` stores, its state in `b'` stores. -/
def Keeps (Stores : σ → String → List UInt8 → Prop) (b b' : VfsBuilder σ) : Prop :=
  ∀ key data, Stores b.callbackState key data → Stores b'.callbackState key data

variable {Stores : σ → String → List UInt8 → Prop}

theorem Keeps.of_eq {b b' : VfsBuilder σ} (h : b'.callbackState = b.callbackState) :
    Keeps Stores b b' :=
  fun _ _ hs => h ▸ hs

theorem Keeps.trans {b₁ b₂ b₃ : VfsBuilder σ} (h₁ : Keeps Stores b₁ b₂) (h₂ : Keeps Stores b₂ b₃) :
    Keeps Stores b₁ b₃ :=
  fun key data hs => h₂ key data (h₁ key data hs)

/-- `add_dir` leaves the callback's state, and whatever the walk returns
beside the entries, `k` returned on some level. -/
theorem addDirThen_ok {β : Type} {b b' : VfsBuilder σ} {path : List String}
    {k : List VfsEntry → Except BuildError (List VfsEntry × β)} {r : β}
    (hb : b.addDirThen path k = .ok (b', r)) :
    b'.callbackState = b.callbackState ∧ ∃ leaf leaf', k leaf = .ok (leaf', r) := by
  obtain ⟨rel, -, hb⟩ := bind_eq_ok.1 hb
  obtain ⟨⟨entries, r'⟩, hw, hret⟩ := bind_eq_ok.1 hb
  cases hret
  exact ⟨rfl, exists_of_walkDir_ok rel hw⟩

theorem keeps_addDir {b b' : VfsBuilder σ} {path : List String} (hb : b.addDir path = .ok b') :
    Keeps Stores b b' := by
  obtain ⟨⟨b'', u⟩, hthen, rfl⟩ := map_eq_ok.1 hb
  exact Keeps.of_eq (addDirThen_ok hthen).1

theorem keeps_addSymlink {b b' : VfsBuilder σ} {path target : List String}
    (hb : b.addSymlink path target = .ok b') : Keeps Stores b b' := by
  unfold addSymlink at hb
  obtain ⟨dest, -, hb⟩ := bind_eq_ok.1 hb
  obtain ⟨rel, -, hb⟩ := bind_eq_ok.1 hb
  split at hb
  · cases hb
    exact Keeps.of_eq rfl
  · split at hb
    · cases hb
    · obtain ⟨⟨b'', u⟩, hthen, rfl⟩ := map_eq_ok.1 hb
      exact Keeps.of_eq (addDirThen_ok hthen).1

/-- `add_file` runs the callback at most once, which keeps what it stored. -/
theorem keeps_addFile (hstore : ContentStore addContent Stores) {b b' : VfsBuilder σ}
    {path : List String} {data : List UInt8} (hb : b.addFile checksum addContent path data = .ok b') :
    Keeps Stores b b' := by
  unfold addFile at hb
  split at hb
  · cases hb
  · obtain ⟨⟨b'', st⟩, hthen, hret⟩ := bind_eq_ok.1 hb
    cases hret
    obtain ⟨-, leaf, leaf', hk⟩ := addDirThen_ok hthen
    intro key old hold
    show Stores st key old
    split at hk
    · cases hk
      exact hold
    · cases hk
      exact hstore.kept _ _ _ _ _ _ hold

/-- On a sorted builder, `add_file` of a path that held nothing runs the
callback on the file. -/
theorem callbackState_addFile {b b' : VfsBuilder σ} {rel : List String} {name : String}
    {data : List UInt8} (h : Sorted b.rootDir.entries)
    (hb : b.addFile checksum addContent (b.rootPath ++ rel ++ [name]) data = .ok b')
    (hnew : entryAt b.rootDir.entries (rel ++ [name]) = none) :
    b'.callbackState = (addContent b.callbackState (b.rootPath ++ rel ++ [name]) name data).2 := by
  unfold addFile at hb
  rw [List.getLast?_concat, List.dropLast_concat] at hb
  obtain ⟨⟨b'', st⟩, hthen, hret⟩ := bind_eq_ok.1 hb
  cases hret
  have hw := walkDir_of_addDirThen hthen
  obtain ⟨leaf, leaf', hleaf, hk, hbefore, -⟩ := entryAt_walkDir rel h hw
  have hnone : leaf.find? (fun e => e.name = name) = none := by
    rw [← entryAt_singleton, hbefore [name] (List.cons_ne_nil _ _), hnew]
  cases hsearch : searchName leaf name with
  | ok i =>
      -- the search finds only a name the level holds
      obtain ⟨x, hx, hcmp⟩ := binarySearchBy_ok hsearch
      have hfind := hleaf.find?_of_getElem? hx
      rw [compare_eq_iff_eq.1 hcmp, hnone] at hfind
      cases hfind
  | error i =>
      rw [hsearch] at hk
      cases hk
      rfl

mutual

theorem keeps_addChildren (hstore : ContentStore addContent Stores) {b b' : VfsBuilder σ}
    {path : List String} :
    ∀ {children : List FsNode}, b.addChildren checksum addContent path children = .ok b' →
      Keeps Stores b b'
  | [], hb => by
      cases hb
      exact Keeps.of_eq rfl
  | node :: rest, hb => by
      obtain ⟨b1, h1, hrest⟩ := bind_eq_ok.1 hb
      exact (keeps_addChild hstore h1).trans (keeps_addChildren hstore hrest)

theorem keeps_addChild (hstore : ContentStore addContent Stores) {b b' : VfsBuilder σ}
    {path : List String} :
    ∀ {node : FsNode}, b.addChild checksum addContent path node = .ok b' → Keeps Stores b b'
  | .dir name children, hb => by
      obtain ⟨b1, h1, hrest⟩ := bind_eq_ok.1 hb
      exact (keeps_addDir h1).trans (keeps_addChildren hstore hrest)
  | .file name bytes, hb => keeps_addFile checksum addContent hstore hb
  | .symlink _ none _, hb => by
      cases hb
      exact Keeps.of_eq rfl
  | .symlink name (some target) targetFile, hb => by
      unfold addChild at hb
      split at hb
      · split at hb
        · exact keeps_addFile checksum addContent hstore hb
        · cases hb
          exact Keeps.of_eq rfl
      · exact keeps_addSymlink hb
  | .other _, hb => by
      cases hb
      exact Keeps.of_eq rfl

end

mutual

/-- Every add of `add_dir_recursive` into a folder below `rel ++ [x]` leaves
the paths that leave `rel` by another name. -/
theorem outside_addChildren {b b' : VfsBuilder σ} {P rel s : List String} {x : String}
    (hP : P = rel ++ x :: s) :
    ∀ {children : List FsNode}, Sorted b.rootDir.entries →
      b.addChildren checksum addContent (b.rootPath ++ P) children = .ok b' → Outside b b' rel x
  | [], _, hb => by
      cases hb
      exact Outside.refl _ _ _
  | node :: rest, h, hb => by
      obtain ⟨b1, h1, hrest⟩ := bind_eq_ok.1 hb
      rw [← rootPath_addChild checksum addContent h1] at hrest
      have hnode : P ++ [node.name] = rel ++ x :: (s ++ [node.name]) := by simp [hP]
      exact (outside_addChild hnode h h1).trans
        (outside_addChildren hP (sorted_addChild checksum addContent h h1) hrest)

/-- One entry of a folder at `P` is added below `P ++ [name]`. -/
theorem outside_addChild {b b' : VfsBuilder σ} {P rel s : List String} {x : String} :
    ∀ {node : FsNode}, P ++ [node.name] = rel ++ x :: s → Sorted b.rootDir.entries →
      b.addChild checksum addContent (b.rootPath ++ P) node = .ok b' → Outside b b' rel x
  | .dir name children, hP, h, hb => by
      obtain ⟨b1, h1, hrest⟩ := bind_eq_ok.1 hb
      rw [List.append_assoc] at h1 hrest
      rw [← rootPath_addDir h1] at hrest
      exact (outside_addDir h h1 hP).trans
        (outside_addChildren hP (sorted_addDir h h1) hrest)
  | .file name bytes, hP, h, hb => outside_addFile checksum addContent h hb hP
  | .symlink _ none _, _, _, hb => by
      cases hb
      exact Outside.refl _ _ _
  | .symlink name (some target) targetFile, hP, h, hb => by
      unfold addChild at hb
      split at hb
      · split at hb
        · exact outside_addFile checksum addContent h hb hP
        · cases hb
          exact Outside.refl _ _ _
      · exact outside_addSymlink h hb hP
  | .other _, _, _, hb => by
      cases hb
      exact Outside.refl _ _ _

end

/-- The entries of a folder added after one leave the paths below its name. -/
theorem entryAt_addChildren_of_not_mem {P : List String} {y : String} (q : List String) :
    ∀ {children : List FsNode} {b b' : VfsBuilder σ}, Sorted b.rootDir.entries →
      y ∉ children.map FsNode.name →
      b.addChildren checksum addContent (b.rootPath ++ P) children = .ok b' →
      entryAt b'.rootDir.entries (P ++ y :: q) = entryAt b.rootDir.entries (P ++ y :: q)
  | [], _, _, _, _, hb => by
      cases hb
      rfl
  | node :: rest, b, b', h, hy, hb => by
      obtain ⟨b1, h1, hrest⟩ := bind_eq_ok.1 hb
      rw [List.map_cons, List.mem_cons, not_or] at hy
      rw [← rootPath_addChild checksum addContent h1] at hrest
      rw [entryAt_addChildren_of_not_mem q (sorted_addChild checksum addContent h h1) hy.2 hrest]
      exact outside_addChild checksum addContent (s := []) rfl h h1 y hy.1 q

mutual

/-- Adding the entries of a folder at `P`, none of them there before, puts
every regular file of the folder at its path, under a key the callback's
state stores its bytes under. -/
theorem files_addChildren (hstore : ContentStore addContent Stores) {b b' : VfsBuilder σ}
    {P : List String} :
    ∀ {children : List FsNode}, Sorted b.rootDir.entries → UniqueNames children →
      (∀ node ∈ children, entryAt b.rootDir.entries (P ++ [node.name]) = none) →
      b.addChildren checksum addContent (b.rootPath ++ P) children = .ok b' →
      ∀ {dir : List String} {name : String} {bytes : List UInt8}, FileAt children dir name bytes →
        ∃ offset key, entryAt b'.rootDir.entries (P ++ dir ++ [name]) =
          some (.file name offset ⟨key, UInt64.ofNat bytes.length⟩) ∧
          Stores b'.callbackState key bytes
  | [], _, _, _, _, _, _, _, hfile => by
      cases hfile with
      | file hmem => cases hmem
      | dir hmem _ => cases hmem
  | node :: rest, h, hunique, hfresh, hb, dir, name, bytes, hfile => by
      obtain ⟨hnode, hrest, hsub⟩ := hunique.cons
      obtain ⟨b1, h1, hb'⟩ := bind_eq_ok.1 hb
      have hsorted := sorted_addChild checksum addContent h h1
      rw [← rootPath_addChild checksum addContent h1] at hb'
      rcases hfile.cons_cases with hfile | hfile
      · -- a file of `node`: added first, and below a name the rest of the folder leaves
        obtain ⟨offset, key, hat, hstored⟩ :=
          files_addChild hstore h hsub (hfresh node List.mem_cons_self) h1 hfile
        obtain ⟨q, hq⟩ := hfile.path_singleton
        refine ⟨offset, key, ?_, keeps_addChildren checksum addContent hstore hb' _ _ hstored⟩
        rw [List.append_assoc, hq] at hat ⊢
        rw [entryAt_addChildren_of_not_mem checksum addContent q hsorted hnode hb']
        exact hat
      · -- a file of the rest, added to a tree that `node` changed only below its name
        have hfresh' : ∀ node' ∈ rest, entryAt b1.rootDir.entries (P ++ [node'.name]) = none := by
          intro node' hmem
          have hne : node'.name ≠ node.name := fun heq => hnode (heq ▸ List.mem_map_of_mem hmem)
          rw [outside_addChild checksum addContent (s := []) rfl h h1 _ hne [],
            hfresh node' (List.mem_cons_of_mem _ hmem)]
        exact files_addChildren hstore hsorted hrest hfresh' hb' hfile

/-- Adding one entry of a folder at `P`, nothing at its name before, puts
every regular file of the entry at its path, under a key the callback's state
stores its bytes under. -/
theorem files_addChild (hstore : ContentStore addContent Stores) {b b' : VfsBuilder σ}
    {P : List String} :
    ∀ {node : FsNode}, Sorted b.rootDir.entries → (∀ n sub, node = .dir n sub → UniqueNames sub) →
      entryAt b.rootDir.entries (P ++ [node.name]) = none →
      b.addChild checksum addContent (b.rootPath ++ P) node = .ok b' →
      ∀ {dir : List String} {name : String} {bytes : List UInt8}, FileAt [node] dir name bytes →
        ∃ offset key, entryAt b'.rootDir.entries (P ++ dir ++ [name]) =
          some (.file name offset ⟨key, UInt64.ofNat bytes.length⟩) ∧
          Stores b'.callbackState key bytes
  | .dir d ch, h, hsub, hnew, hb, dir, name, bytes, hfile => by
      obtain ⟨b1, h1, hb'⟩ := bind_eq_ok.1 hb
      rw [List.append_assoc] at h1 hb'
      rw [← rootPath_addDir h1] at hb'
      -- the directory `add_dir` makes is new, and so empty
      have hfresh : ∀ c ∈ ch, entryAt b1.rootDir.entries (P ++ [d] ++ [c.name]) = none := by
        intro c _
        rw [entryAt_addDir_below h h1 (List.cons_ne_nil _ _)]
        exact entryAt_append_of_eq_none _ (by simp) hnew
      cases hfile with
      | file hmem => simp at hmem
      | dir hmem hfile' =>
          rw [List.mem_singleton] at hmem
          cases hmem
          obtain ⟨offset, key, hat, hstored⟩ :=
            files_addChildren hstore (sorted_addDir h h1) (hsub d ch rfl) hfresh hb' hfile'
          exact ⟨offset, key, by simpa using hat, hstored⟩
  | .file n data, h, _, hnew, hb, dir, name, bytes, hfile => by
      have hb' : b.addFile checksum addContent (b.rootPath ++ P ++ [n]) data = .ok b' := hb
      have hnew' : entryAt b.rootDir.entries (P ++ [n]) = none := hnew
      cases hfile with
      | file hmem =>
          rw [List.mem_singleton] at hmem
          cases hmem
          have hat := entryAt_addFile checksum addContent h hb'
          rw [hnew', Option.getD_none] at hat
          refine ⟨_, _, by simpa using hat, ?_⟩
          have hadded := hstore.added b.callbackState (b.rootPath ++ P ++ [n]) n data
          rw [callbackState_addFile checksum addContent h hb' hnew']
          simp only [List.append_assoc] at hadded ⊢
          exact hadded
      | dir hmem _ => simp at hmem
  | .symlink _ _ _, _, _, _, _, _, _, _, hfile => by
      cases hfile with
      | file hmem => simp at hmem
      | dir hmem _ => simp at hmem
  | .other _, _, _, _, _, _, _, _, hfile => by
      cases hfile with
      | file hmem => simp at hmem
      | dir hmem _ => simp at hmem

end

/-- A `node_modules` build adds its folder to an empty tree: every regular
file of the folder is at its path, under a key the callback stores its bytes
under. -/
theorem entryAt_addDirRecursive_self (hstore : ContentStore addContent Stores)
    {nodeModules : List String} {st : σ} {children : List FsNode} {b : VfsBuilder σ}
    (hb : (VfsBuilder.new nodeModules st).addDirRecursive checksum addContent nodeModules nodeModules
      children = .ok b)
    (hunique : UniqueNames children) {dir : List String} {name : String} {bytes : List UInt8}
    (hfile : FileAt children dir name bytes) :
    ∃ offset key, entryAt b.rootDir.entries (dir ++ [name]) =
      some (.file name offset ⟨key, UInt64.ofNat bytes.length⟩) ∧ Stores b.callbackState key bytes := by
  unfold addDirRecursive at hb
  rw [if_neg fun h => h rfl] at hb
  obtain ⟨b0, h0, hb⟩ := bind_eq_ok.1 hb
  cases h0
  unfold addDirRecursiveInternal at hb
  obtain ⟨b1, h1, hb⟩ := bind_eq_ok.1 hb
  have h1' : (VfsBuilder.new nodeModules st).addDir ((VfsBuilder.new nodeModules st).rootPath ++ []) =
      .ok b1 := by
    rw [List.append_nil]
    exact h1
  have hentries : b1.rootDir.entries = [] := (Prod.mk.inj (Except.ok.inj (addDir_walk h1'))).1.symm
  have hfresh : ∀ c ∈ children, entryAt b1.rootDir.entries ([] ++ [c.name]) = none := by
    intro c _
    rw [hentries]
    exact entryAt_nil_entries _
  have hb' : b1.addChildren checksum addContent (b1.rootPath ++ []) children = .ok b := by
    rw [List.append_nil, rootPath_addDir h1]
    exact hb
  obtain ⟨offset, key, hat, hstored⟩ :=
    files_addChildren checksum addContent hstore (sorted_addDir Sorted.nil h1) hunique hfresh hb' hfile
  exact ⟨offset, key, by simpa using hat, hstored⟩

/-- After a `node_modules` build, `find_entry` below the served root finds
every regular file of the folder, under a key the callback stores its bytes
under. -/
theorem findEntry_buildVfs_stored (hstore : ContentStore addContent Stores) {npm : NpmResolver}
    {st : σ} {b : VfsBuilder σ} {nodeModules : List String} {children : List FsNode}
    (hnm : npm.rootNodeModules = some (nodeModules, children)) (hunique : UniqueNames children)
    (hbuild : buildVfs checksum addContent npm st = .ok b) {dir : List String} {name : String}
    {bytes : List UInt8} (hfile : FileAt children dir name bytes) {rootDirPath : List String}
    (hroot : rootDirPath ≠ []) {fuel : Nat} (hfuel : dir.length + 4 ≤ fuel) :
    ∃ r offset key, loadNpmVfs rootDirPath (some b.rootDir) = .ok r ∧
      r.findEntry fuel (rootDirPath ++ dir ++ [name]) =
        some (.ok (rootDirPath ++ dir ++ [name], .file name offset ⟨key, UInt64.ofNat bytes.length⟩)) ∧
      Stores b.callbackState key bytes := by
  have hsorted := sorted_buildVfs_nodeModules checksum addContent hnm hbuild
  unfold buildVfs at hbuild
  rw [hnm] at hbuild
  obtain ⟨offset, key, hat, hstored⟩ :=
    entryAt_addDirRecursive_self checksum addContent hstore hbuild hunique hfile
  obtain ⟨r, hload, hentries, hpath⟩ := loadNpmVfs_some hroot b.rootDir
  refine ⟨r, offset, key, hload, ?_, hstored⟩
  rw [← hentries] at hat hsorted
  rw [List.append_assoc, ← hpath]
  exact r.findEntry_of_entryAt hsorted hat (fun _ _ h => by cases h) (by simp; omega)

/-- Any callback stores what nothing is asked of. -/
theorem ContentStore.true : ContentStore addContent fun _ _ _ => True :=
  ⟨fun _ _ _ _ => trivial, fun _ _ _ _ _ _ _ => trivial⟩

/-- After a `node_modules` build from a file system whose directories list
each name once, `find_entry` of the runtime's root followed by the path of
any regular file of the folder returns that file, with its name and length,
once `load_npm_vfs` serves the tree. -/
theorem findEntry_buildVfs {npm : NpmResolver} {st : σ} {b : VfsBuilder σ}
    {nodeModules : List String} {children : List FsNode}
    (hnm : npm.rootNodeModules = some (nodeModules, children)) (hunique : UniqueNames children)
    (hbuild : buildVfs checksum addContent npm st = .ok b) {dir : List String} {name : String}
    {bytes : List UInt8} (hfile : FileAt children dir name bytes) {rootDirPath : List String}
    (hroot : rootDirPath ≠ []) {fuel : Nat} (hfuel : dir.length + 4 ≤ fuel) :
    ∃ r offset key, loadNpmVfs rootDirPath (some b.rootDir) = .ok r ∧
      r.findEntry fuel (rootDirPath ++ dir ++ [name]) =
        some (.ok (rootDirPath ++ dir ++ [name], .file name offset ⟨key, UInt64.ofNat bytes.length⟩)) := by
  obtain ⟨r, offset, key, hload, hfind, -⟩ := findEntry_buildVfs_stored checksum addContent
    (ContentStore.true addContent) hnm hunique hbuild hfile hroot hfuel
  exact ⟨r, offset, key, hload, hfind⟩

/-- The `node_modules` folder of the examples below: `zod/index.js` and
`README.md`, each name once. -/
theorem uniqueNames_zod : UniqueNames [.dir "zod" [.file "index.js" [1]], .file "README.md" [2, 3]] := by
  refine ⟨by decide, fun n sub hmem => ?_⟩
  simp only [List.mem_cons, FsNode.dir.injEq, List.mem_nil_iff, or_false, reduceCtorEq] at hmem
  obtain ⟨rfl, rfl⟩ := hmem
  exact ⟨by decide, fun _ _ h => by simp at h⟩

/-- A project whose `node_modules` holds `zod/index.js` and `README.md`:
served below `/var/task`, `find_entry` of `/var/task/zod/index.js` returns
that file, one byte long. -/
theorem findEntry_buildVfs_zod :
    ∃ r offset key,
      loadNpmVfs ["var", "task"] (some ⟨"node_modules",
        [.file "README.md" 1 ⟨"vfs://1", 2⟩, .dir "zod" [.file "index.js" 0 ⟨"vfs://0", 1⟩]]⟩) = .ok r ∧
      r.findEntry 5 (["var", "task"] ++ ["zod"] ++ ["index.js"]) =
        some (.ok (["var", "task"] ++ ["zod"] ++ ["index.js"],
          .file "index.js" offset ⟨key, UInt64.ofNat [(1 : UInt8)].length⟩)) := by
  have hbuild : buildVfs (fun data => toString data.length)
      (fun (count : Nat) _ _ _ => ("vfs://" ++ toString count, count + 1))
      ⟨some (["app", "node_modules"], [.dir "zod" [.file "index.js" [1]], .file "README.md" [2, 3]]),
        ["cache"], []⟩ 0 =
      .ok { rootPath := ["app", "node_modules"],
            rootDir := ⟨"node_modules",
              [.file "README.md" 1 ⟨"vfs://1", 2⟩, .dir "zod" [.file "index.js" 0 ⟨"vfs://0", 1⟩]]⟩,
            currentOffset := 3, fileOffsets := [("2", 1), ("1", 0)], callbackState := 2 } := by
    decide +kernel
  exact findEntry_buildVfs _ _ (by rfl) uniqueNames_zod hbuild
    (@FileAt.dir _ "zod" [.file "index.js" [1]] [] "index.js" [1] (by simp) (.file (by simp)))
    (List.cons_ne_nil _ _) (by decide)

end VfsBuilder

end EdgeRuntime.Vfs
