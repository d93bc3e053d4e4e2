import Mathlib
import EdgeRuntime.Vfs.Builder

/-!
# Migrating an eszip to version 1.1

`try_migrate_if_needed` (crates/sb_graph/eszip_migrate.rs) reads the
version marker an eszip holds under `SUPABASE_ESZIP_VERSION_KEY`.  An eszip
without one is a v0 eszip: its virtual file system, under `VFS_ESZIP_KEY`,
is a serde JSON `v0::Directory` whose files carry their contents inline.
`try_migrate_v0_v1` walks that tree with a counter, gives the file it meets
when the counter is `n` the key `vfs://n`, stores its contents as opaque
data under that key, and writes the tree as an rkyv `v1::Directory` into a
new eszip, with the marker `1` and every other module of the v0 eszip moved
over.  `try_migrate_v1_v1_1` then marks the eszip `1.1` and puts the tree
under a `node_modules` root as its only child `localhost`; it refuses a tree
whose root is not named `node_modules`.

A module's source is bytes; the two serialized trees are kept as the trees
they encode, so a blob that does not decode is a source of another shape.
The `v1` types have the shape of the runtime's `VirtualDirectory` and are
modelled by it.  The module map (`EszipV2Modules`, a linked hash map) is an
`AList`: the migration only looks modules up, and a move inserts each key
once, so the order it iterates in does not matter.  The callers drop the
eszip an `Err` hands back, so the model returns the error's message
instead, and `unreachable!()` is `none`.  `count` is an `i32` in the
source; the model counts with `Nat`, as no eszip holds 2^31 files.

## Main results

* `tryMigrateIfNeeded_ok`: a v0 eszip whose root is `node_modules` and which
  holds no module under a `vfs://` key, and a v1 eszip, migrate to a `1.1`
  eszip whose tree is the original under `node_modules/localhost`, with the
  v0 files keyed `vfs://0`, `vfs://1`, … in the order of the walk and
  readable under their keys, and every other module kept.
* `tryMigrateIfNeeded_v0_not_preserved`: a v0 tree whose root is not named
  `node_modules` is not migrated, and a module under `vfs://0` takes the
  place of the contents of the first file.
-/

namespace EdgeRuntime.Eszip

open EdgeRuntime.Vfs

/-- `v0::Entry`, with `v0::Directory` as the payload of its `Dir` case. -/
inductive V0Entry
  | dir (name : String) (entries : List V0Entry)
  | file (name : String) (offset len : UInt64) (content : Option (List UInt8))
  | symlink (name : String) (destParts : List String)

/-- `v0::Directory`. -/
structure V0Directory where
  name : String
  entries : List V0Entry

/-- The source of an eszip module. -/
inductive Source
  | bytes (data : List UInt8)
  /-- A serde JSON `Option<v0::Directory>`. -/
  | v0Vfs (dir : Option V0Directory)
  /-- An rkyv `Option<v1::Directory>`. -/
  | v1Vfs (dir : Option VirtualDirectory)

/-- `EszipV2Modules`: the sources by specifier. -/
abbrev Modules := AList fun _ : String => Source

/-- `SUPABASE_ESZIP_VERSION_KEY`. -/
def versionKey : String := "---SUPABASE-ESZIP-VERSION-ESZIP---"

/-- `VFS_ESZIP_KEY`. -/
def vfsKey : String := "---SUPABASE-VFS-DATA-ESZIP---"

/-- `SUPABASE_ESZIP_VERSION`, `b"1.1"`. -/
def eszipVersion : List UInt8 := [0x31, 0x2E, 0x31]

/-- The marker `b"1"` of a v1 eszip. -/
def versionV1 : List UInt8 := [0x31]

/-- `LazyLoadableEszip::ensure_version`: `Err(found)` unless the marker is
`1.1`. -/
def ensureVersion (m : Modules) : Except (Option Source) Unit :=
  match m.lookup versionKey with
  | some (.bytes v) => if v = eszipVersion then .ok () else .error (some (.bytes v))
  | found => .error found

/-- The key `migrate_dir_v0_v1` gives the file it meets when `count` is `n`. -/
def fileKey (n : Nat) : String := "vfs://" ++ toString n

mutual

/-- The loop of `migrate_dir_v0_v1` over the entries of a directory, with the
modules of the v1 eszip and `count`. -/
def migrateEntries : List V0Entry → Modules → Nat → List VfsEntry × Modules × Nat
  | [], m, count => ([], m, count)
  | e :: es, m, count =>
      let (e', m, count) := migrateEntry e m count
      let (es', m, count) := migrateEntries es m count
      (e' :: es', m, count)

/-- One entry of that loop. -/
def migrateEntry : V0Entry → Modules → Nat → VfsEntry × Modules × Nat
  | .dir name entries, m, count =>
      let (entries', m, count) := migrateEntries entries m count
      (.dir name entries', m, count)
  | .file name offset len content, m, count =>
      (.file name offset ⟨fileKey count, len⟩,
        (match content with
         | some data => m.insert (fileKey count) (.bytes data)
         | none => m),
        count + 1)
  | .symlink name destParts, m, count => (.symlink name destParts, m, count)

end

/-- `migrate_dir_v0_v1`. -/
def migrateDirV0V1 (d : V0Directory) (m : Modules) (count : Nat) :
    VirtualDirectory × Modules × Nat :=
  let (entries, m, count) := migrateEntries d.entries m count
  (⟨d.name, entries⟩, m, count)

/-- The tree `try_migrate_v0_v1` reads: none without a tree module, and an
error for a blob that is not a JSON v0 tree. -/
def readV0Vfs (m : Modules) : Except String (Option V0Directory) :=
  match m.lookup vfsKey with
  | none => .ok none
  | some (.v0Vfs d) => .ok d
  | some _ => .error "failed to parse v0 structure"

/-- The v1 tree and the modules of the new eszip after the walk. -/
def migrateVfs : Option V0Directory → Option VirtualDirectory × Modules
  | none => (none, ∅)
  | some d => (some (migrateDirV0V1 d ∅ 0).1, (migrateDirV0V1 d ∅ 0).2.1)

/-- The `BLOCKLIST` of the module move. -/
def blocklist : List String := [versionKey, vfsKey]

/-- The move of the v0 eszip's modules, all but the blocklisted ones, into
the v1 eszip. -/
def moveModules (v0 v1 : Modules) : Modules :=
  v0.entries.foldl (fun v1 e => if e.1 ∈ blocklist then v1 else v1.insert e.1 e.2) v1

/-- `v0::try_migrate_v0_v1`. -/
def tryMigrateV0V1 (v0 : Modules) : Except String Modules :=
  (readV0Vfs v0).map fun d =>
    moveModules v0 ((((migrateVfs d).2.insert versionKey (.bytes versionV1))).insert vfsKey
      (.v1Vfs (migrateVfs d).1))

/-- The root `try_migrate_v1_v1_1` writes: the old root, renamed
`localhost`, as the only child of `node_modules`. -/
def localhostRoot (d : VirtualDirectory) : VirtualDirectory :=
  ⟨"node_modules", [.dir "localhost" d.entries]⟩

/-- `v1_1::try_migrate_v1_v1_1`. -/
def tryMigrateV1V1_1 (v1 : Modules) : Except String Modules :=
  let v1_1 := v1.insert versionKey (.bytes eszipVersion)
  match v1.lookup vfsKey with
  | none => .ok v1_1
  | some (.v1Vfs none) => .ok (v1_1.insert vfsKey (.v1Vfs none))
  | some (.v1Vfs (some d)) =>
      if d.name ≠ "node_modules" then .error "malformed vfs data (expected node_modules)"
      else .ok (v1_1.insert vfsKey (.v1Vfs (some (localhostRoot d))))
  | some _ => .error "cannot deserialize vfs data"

/-- `try_migrate_if_needed`. -/
def tryMigrateIfNeeded (m : Modules) : Option (Except String Modules) :=
  match ensureVersion m with
  | .ok () => some (.ok m)
  | .error none => some ((tryMigrateV0V1 m).bind tryMigrateV1V1_1)
  | .error (some (.bytes v)) => if v = versionV1 then some (tryMigrateV1V1_1 m) else none
  | .error (some _) => none

/-! ## The walk -/

mutual

/-- The contents of the files under the entries, in the order the walk meets
them. -/
def filesOfEntries : List V0Entry → List (Option (List UInt8))
  | [] => []
  | e :: es => filesOfEntry e ++ filesOfEntries es

/-- The contents of the files under an entry. -/
def filesOfEntry : V0Entry → List (Option (List UInt8))
  | .dir _ entries => filesOfEntries entries
  | .file _ _ _ content => [content]
  | .symlink _ _ => []

end

mutual

/-- The v1 entries of the same shape, with no keys. -/
def skeletonEntries : List V0Entry → List VfsEntry
  | [] => []
  | e :: es => skeletonEntry e :: skeletonEntries es

/-- The v1 entry of the same shape, with no key. -/
def skeletonEntry : V0Entry → VfsEntry
  | .dir name entries => .dir name (skeletonEntries entries)
  | .file name offset len _ => .file name offset ⟨"", len⟩
  | .symlink name destParts => .symlink name destParts

end

mutual

/-- The entries with the keys of their files erased. -/
def eraseKeysEntries : List VfsEntry → List VfsEntry
  | [] => []
  | e :: es => eraseKeysEntry e :: eraseKeysEntries es

/-- The entry with the keys of its files erased. -/
def eraseKeysEntry : VfsEntry → VfsEntry
  | .dir name entries => .dir name (eraseKeysEntries entries)
  | .file name offset f => .file name offset ⟨"", f.len⟩
  | .symlink name destParts => .symlink name destParts

end

mutual

/-- The keys of the files under the entries, in pre-order. -/
def keysOfEntries : List VfsEntry → List String
  | [] => []
  | e :: es => keysOfEntry e ++ keysOfEntries es

/-- The keys of the files under an entry. -/
def keysOfEntry : VfsEntry → List String
  | .dir _ entries => keysOfEntries entries
  | .file _ _ f => [f.key]
  | .symlink _ _ => []

end

/-- The opaque data the walk stores: the contents of the files from the
`n`-th on, each under its key. -/
def storeFiles : Modules → Nat → List (Option (List UInt8)) → Modules
  | m, _, [] => m
  | m, n, none :: rest => storeFiles m (n + 1) rest
  | m, n, some data :: rest => storeFiles (m.insert (fileKey n) (.bytes data)) (n + 1) rest

theorem storeFiles_append (m : Modules) (n : Nat) (l₁ l₂ : List (Option (List UInt8))) :
    storeFiles m n (l₁ ++ l₂) = storeFiles (storeFiles m n l₁) (n + l₁.length) l₂ := by
  induction l₁ generalizing m n with
  | nil => rfl
  | cons c rest ih =>
      cases c with
      | none =>
          rw [List.cons_append, storeFiles, ih, storeFiles, List.length_cons]
          congr 1
          omega
      | some data =>
          rw [List.cons_append, storeFiles, ih, storeFiles, List.length_cons]
          congr 1
          omega

mutual

/-- The spec of the walk: it stores the files' contents, counts them, keeps
the shape of the tree, and keys the files in the order it meets them. -/
theorem migrateEntries_spec : ∀ (es : List V0Entry) (m : Modules) (n : Nat),
    (migrateEntries es m n).2 = (storeFiles m n (filesOfEntries es), n + (filesOfEntries es).length) ∧
      eraseKeysEntries (migrateEntries es m n).1 = skeletonEntries es ∧
      keysOfEntries (migrateEntries es m n).1 =
        (List.range' n (filesOfEntries es).length).map fileKey
  | [], m, n => ⟨rfl, rfl, rfl⟩
  | e :: es, m, n => by
      obtain ⟨he, he₁, he₂⟩ := migrateEntry_spec e m n
      obtain ⟨hes, hes₁, hes₂⟩ := migrateEntries_spec es (migrateEntry e m n).2.1
        (migrateEntry e m n).2.2
      rw [he] at hes hes₁ hes₂
      refine ⟨?_, ?_, ?_⟩
      · show (migrateEntries es (migrateEntry e m n).2.1 (migrateEntry e m n).2.2).2 = _
        rw [he, hes, filesOfEntries, storeFiles_append, List.length_append, Nat.add_assoc]
      · show eraseKeysEntry (migrateEntry e m n).1 ::
          eraseKeysEntries (migrateEntries es (migrateEntry e m n).2.1 (migrateEntry e m n).2.2).1 = _
        rw [he, he₁, hes₁]
        rfl
      · show keysOfEntry (migrateEntry e m n).1 ++
          keysOfEntries (migrateEntries es (migrateEntry e m n).2.1 (migrateEntry e m n).2.2).1 = _
        rw [he, he₂, hes₂, filesOfEntries, List.length_append, ← List.range'_append_1,
          List.map_append]

/-- The spec of one entry of the walk. -/
theorem migrateEntry_spec : ∀ (e : V0Entry) (m : Modules) (n : Nat),
    (migrateEntry e m n).2 = (storeFiles m n (filesOfEntry e), n + (filesOfEntry e).length) ∧
      eraseKeysEntry (migrateEntry e m n).1 = skeletonEntry e ∧
      keysOfEntry (migrateEntry e m n).1 = (List.range' n (filesOfEntry e).length).map fileKey
  | .dir name entries, m, n => by
      obtain ⟨h, h₁, h₂⟩ := migrateEntries_spec entries m n
      exact ⟨h, congrArg (VfsEntry.dir name) h₁, h₂⟩
  | .file name offset len content, m, n => by
      cases content with
      | none => exact ⟨rfl, rfl, rfl⟩
      | some data => exact ⟨rfl, rfl, rfl⟩
  | .symlink name destParts, m, n => ⟨rfl, rfl, rfl⟩

end

/-! ## The keys -/

theorem fileKey_injective : Function.Injective fileKey := fun _ _ h =>
  Nat.repr_inj.1 ((String.append_right_inj _).1 h)

theorem head_fileKey (n : Nat) : (fileKey n).toList.head? = some 'v' := by
  rw [fileKey, String.toList_append]
  rfl

theorem fileKey_ne_of_head {k : String} (hk : k.toList.head? ≠ some 'v') (n : Nat) :
    k ≠ fileKey n := by
  rintro rfl
  exact hk (head_fileKey n)

theorem fileKey_not_mem_blocklist (n : Nat) : fileKey n ∉ blocklist := by
  have hversion : versionKey.toList.head? ≠ some 'v' := by decide
  have hvfs : vfsKey.toList.head? ≠ some 'v' := by decide
  simp only [blocklist, List.mem_cons, List.not_mem_nil, or_false, not_or]
  exact ⟨Ne.symm (fileKey_ne_of_head hversion n), Ne.symm (fileKey_ne_of_head hvfs n)⟩

theorem versionKey_ne_vfsKey : versionKey ≠ vfsKey := by decide

/-- A key below `n` is not touched by the files stored from the `n`-th on. -/
theorem lookup_storeFiles_of_lt {k : String} : ∀ {m : Modules} {n : Nat} {l : List (Option (List UInt8))},
    (∀ j, n ≤ j → k ≠ fileKey j) → (storeFiles m n l).lookup k = m.lookup k
  | _, _, [], _ => rfl
  | m, n, none :: rest, hk => by
      rw [storeFiles, lookup_storeFiles_of_lt fun j hj => hk j (by omega)]
  | m, n, some data :: rest, hk => by
      rw [storeFiles, lookup_storeFiles_of_lt fun j hj => hk j (by omega),
        AList.lookup_insert_ne (hk n (Nat.le_refl n))]

/-- The `i`-th file with contents is stored under `vfs://(n + i)`. -/
theorem lookup_storeFiles_fileKey : ∀ {m : Modules} {n : Nat} {l : List (Option (List UInt8))}
    {i : Nat} {data : List UInt8}, l[i]? = some (some data) →
      (storeFiles m n l).lookup (fileKey (n + i)) = some (.bytes data)
  | _, _, [], _, _, h => by cases h
  | m, n, c :: rest, 0, data, h => by
      have hc : c = some data := by simpa using h
      subst hc
      rw [storeFiles, Nat.add_zero, lookup_storeFiles_of_lt, AList.lookup_insert]
      intro j hj he
      have := fileKey_injective he
      omega
  | m, n, c :: rest, i + 1, data, h => by
      have hrest : rest[i]? = some (some data) := by simpa using h
      have hkey : fileKey (n + (i + 1)) = fileKey (n + 1 + i) := by rw [Nat.add_right_comm, Nat.add_assoc]
      cases c with
      | none => rw [storeFiles, hkey, lookup_storeFiles_fileKey hrest]
      | some d => rw [storeFiles, hkey, lookup_storeFiles_fileKey hrest]

/-! ## The move -/

/-- A module the move does not skip ends up as the v0 eszip had it; the
others are the v1 eszip's. -/
theorem lookup_foldl_move (k : String) :
    ∀ (l : List (Sigma fun _ : String => Source)), l.NodupKeys → ∀ v1 : Modules,
      (l.foldl (fun v1 e => if e.1 ∈ blocklist then v1 else v1.insert e.1 e.2) v1).lookup k =
        if k ∈ blocklist then v1.lookup k else (l.dlookup k).or (v1.lookup k)
  | [], _, v1 => by split <;> rfl
  | ⟨k', s⟩ :: rest, hnodup, v1 => by
      rw [List.nodupKeys_cons] at hnodup
      rw [List.foldl_cons, lookup_foldl_move k rest hnodup.2]
      by_cases hk : k = k'
      · subst hk
        have hnone : rest.dlookup k = none := List.dlookup_eq_none.2 hnodup.1
        by_cases hb : k ∈ blocklist
        · simp [hb]
        · simp [hb, hnone, AList.lookup_insert]
      · have hstep : (if k' ∈ blocklist then v1 else v1.insert k' s).lookup k = v1.lookup k := by
          split
          · rfl
          · exact AList.lookup_insert_ne hk
        rw [hstep, List.dlookup_cons_ne _ _ hk]

theorem lookup_moveModules (v0 v1 : Modules) (k : String) :
    (moveModules v0 v1).lookup k =
      if k ∈ blocklist then v1.lookup k else (v0.lookup k).or (v1.lookup k) :=
  lookup_foldl_move k v0.entries v0.nodupKeys v1

/-! ## Successful migrations -/

/-- What a successful migration to `1.1` leaves: the marker `1.1`, the tree
`node_modules/localhost` with the entries `localhost`, and every module of
the input but the marker and the tree as it was. -/
structure Migrated (m m' : Modules) (localhost : List VfsEntry) : Prop where
  version : m'.lookup versionKey = some (.bytes eszipVersion)
  vfs : m'.lookup vfsKey = some (.v1Vfs (some ⟨"node_modules", [.dir "localhost" localhost]⟩))
  kept : ∀ k, k ∉ blocklist → ∀ s, m.lookup k = some s → m'.lookup k = some s

/-- The second migration of a tree rooted at `node_modules`. -/
theorem tryMigrateV1V1_1_eq {v1 : Modules} {d : VirtualDirectory}
    (hvfs : v1.lookup vfsKey = some (.v1Vfs (some d))) (hname : d.name = "node_modules") :
    tryMigrateV1V1_1 v1 = .ok ((v1.insert versionKey (.bytes eszipVersion)).insert vfsKey
      (.v1Vfs (some (localhostRoot d)))) := by
  simp [tryMigrateV1V1_1, hvfs, hname]

/-- The modules the second migration leaves, looked up. -/
theorem migrated_of_v1 {m v1 : Modules} {d : VirtualDirectory}
    (hkept : ∀ k, k ∉ blocklist → ∀ s, m.lookup k = some s → v1.lookup k = some s) :
    Migrated m ((v1.insert versionKey (.bytes eszipVersion)).insert vfsKey
      (.v1Vfs (some (localhostRoot d)))) d.entries where
  version := by
    rw [AList.lookup_insert_ne versionKey_ne_vfsKey, AList.lookup_insert]
  vfs := AList.lookup_insert _
  kept k hk s hs := by
    simp only [blocklist, List.mem_cons, List.not_mem_nil, or_false, not_or] at hk
    rw [AList.lookup_insert_ne hk.2, AList.lookup_insert_ne hk.1]
    exact hkept k (by simp [blocklist, hk.1, hk.2]) s hs

/-- A v1 eszip whose tree is rooted at `node_modules`. -/
theorem tryMigrateIfNeeded_v1 {m : Modules} {d : VirtualDirectory}
    (hversion : m.lookup versionKey = some (.bytes versionV1))
    (hvfs : m.lookup vfsKey = some (.v1Vfs (some d))) (hname : d.name = "node_modules") :
    ∃ m', tryMigrateIfNeeded m = some (.ok m') ∧ Migrated m m' d.entries := by
  have hne : versionV1 ≠ eszipVersion := by decide
  refine ⟨_, ?_, migrated_of_v1 (fun _ _ _ hs => hs)⟩
  simp [tryMigrateIfNeeded, ensureVersion, hversion, hne, tryMigrateV1V1_1_eq hvfs hname]

/-- A v0 eszip whose tree is rooted at `node_modules`, with no module under a
`vfs://` key. -/
theorem tryMigrateIfNeeded_v0 {m : Modules} {d : V0Directory}
    (hversion : m.lookup versionKey = none) (hvfs : m.lookup vfsKey = some (.v0Vfs (some d)))
    (hname : d.name = "node_modules") (hkeys : ∀ n, m.lookup (fileKey n) = none) :
    ∃ m', tryMigrateIfNeeded m = some (.ok m') ∧
      Migrated m m' (migrateEntries d.entries ∅ 0).1 ∧
      ∀ i data, (filesOfEntries d.entries)[i]? = some (some data) →
        m'.lookup (fileKey i) = some (.bytes data) := by
  obtain ⟨hspec, -, -⟩ := migrateEntries_spec d.entries ∅ 0
  -- the modules of the v1 eszip before the move
  set inner : Modules := ((storeFiles ∅ 0 (filesOfEntries d.entries)).insert versionKey
    (.bytes versionV1)).insert vfsKey (.v1Vfs (some (migrateDirV0V1 d ∅ 0).1)) with hinner
  have hv0 : tryMigrateV0V1 m = .ok (moveModules m inner) := by
    have hstore : (migrateEntries d.entries ∅ 0).2.1 = storeFiles ∅ 0 (filesOfEntries d.entries) :=
      congrArg Prod.fst hspec
    simp only [tryMigrateV0V1, readV0Vfs, hvfs, migrateVfs, Except.map, hinner]
    simp only [migrateDirV0V1] at hstore ⊢
    rw [hstore]
  have hd : (migrateDirV0V1 d ∅ 0).1 = ⟨d.name, (migrateEntries d.entries ∅ 0).1⟩ := rfl
  have hvfs' : (moveModules m inner).lookup vfsKey = some (.v1Vfs (some (migrateDirV0V1 d ∅ 0).1)) := by
    rw [lookup_moveModules, if_pos (by simp [blocklist]), hinner, AList.lookup_insert]
  have hkept : ∀ k, k ∉ blocklist → ∀ s, m.lookup k = some s →
      (moveModules m inner).lookup k = some s := by
    intro k hk s hs
    rw [lookup_moveModules, if_neg hk, hs]
    rfl
  refine ⟨((moveModules m inner).insert versionKey (.bytes eszipVersion)).insert vfsKey
    (.v1Vfs (some (localhostRoot (migrateDirV0V1 d ∅ 0).1))), ?_, ?_, ?_⟩
  · have hmig := tryMigrateV1V1_1_eq hvfs' (by rw [hd]; exact hname)
    simp only [tryMigrateIfNeeded, ensureVersion, hversion, hv0]
    exact congrArg some hmig
  · rw [hd] at hvfs' ⊢
    exact migrated_of_v1 hkept
  · intro i data hi
    have hb := fileKey_not_mem_blocklist i
    simp only [blocklist, List.mem_cons, List.not_mem_nil, or_false, not_or] at hb
    rw [AList.lookup_insert_ne hb.2, AList.lookup_insert_ne hb.1, lookup_moveModules,
      if_neg (fileKey_not_mem_blocklist i), hkeys, Option.none_or, hinner,
      AList.lookup_insert_ne hb.2, AList.lookup_insert_ne hb.1]
    have hstored := lookup_storeFiles_fileKey (m := ∅) (n := 0) hi
    rwa [Nat.zero_add] at hstored

/-- Both migrations to `1.1` succeed and keep the npm tree: a v0 eszip whose
tree is rooted at `node_modules` and which holds no module under a `vfs://`
key, and a v1 eszip whose tree is rooted at `node_modules`.  In the v0 case
the migrated tree `es` has the shape of the v0 tree, its files are keyed
`vfs://0`, `vfs://1`, … in the order of the walk, and each file's contents
are stored under its key. -/
theorem tryMigrateIfNeeded_ok :
    (∀ (m : Modules) (d : V0Directory), m.lookup versionKey = none →
      m.lookup vfsKey = some (.v0Vfs (some d)) → d.name = "node_modules" →
      (∀ n, m.lookup (fileKey n) = none) →
      ∃ m' es, tryMigrateIfNeeded m = some (.ok m') ∧ Migrated m m' es ∧
        eraseKeysEntries es = skeletonEntries d.entries ∧
        keysOfEntries es = (List.range (filesOfEntries d.entries).length).map fileKey ∧
        (keysOfEntries es).Nodup ∧
        ∀ i data, (filesOfEntries d.entries)[i]? = some (some data) →
          m'.lookup (fileKey i) = some (.bytes data)) ∧
    (∀ (m : Modules) (d : VirtualDirectory), m.lookup versionKey = some (.bytes versionV1) →
      m.lookup vfsKey = some (.v1Vfs (some d)) → d.name = "node_modules" →
      ∃ m', tryMigrateIfNeeded m = some (.ok m') ∧ Migrated m m' d.entries) := by
  refine ⟨fun m d hversion hvfs hname hkeys => ?_,
    fun m d hversion hvfs hname => tryMigrateIfNeeded_v1 hversion hvfs hname⟩
  obtain ⟨m', hm', hmig, hread⟩ := tryMigrateIfNeeded_v0 hversion hvfs hname hkeys
  obtain ⟨-, herase, hwalk⟩ := migrateEntries_spec d.entries ∅ 0
  have hrange : keysOfEntries (migrateEntries d.entries ∅ 0).1 =
      (List.range (filesOfEntries d.entries).length).map fileKey := by
    rw [hwalk, List.range_eq_range']
  refine ⟨m', _, hm', hmig, herase, hrange, ?_, hread⟩
  rw [hrange]
  exact List.Nodup.map fileKey_injective List.nodup_range

/-- A v0 eszip with a module `file:///main.ts` and the tree
`node_modules/a.txt`, and a v1 eszip with an empty `node_modules` tree. -/
theorem tryMigrateIfNeeded_ok_main :
    (∃ m', tryMigrateIfNeeded ((((∅ : Modules).insert "file:///main.ts" (.bytes [0x31])).insert
        vfsKey (.v0Vfs (some ⟨"node_modules", [.file "a.txt" 0 1 (some [0x61])]⟩)))) =
          some (.ok m') ∧
        m'.lookup (fileKey 0) = some (.bytes [0x61]) ∧
        m'.lookup "file:///main.ts" = some (.bytes [0x31])) ∧
      ∃ m', tryMigrateIfNeeded (((∅ : Modules).insert versionKey (.bytes versionV1)).insert vfsKey
          (.v1Vfs (some ⟨"node_modules", []⟩))) = some (.ok m') ∧
        m'.lookup versionKey = some (.bytes eszipVersion) := by
  have hkeys : ∀ n, (((∅ : Modules).insert "file:///main.ts" (.bytes [0x31])).insert vfsKey
      (.v0Vfs (some ⟨"node_modules", [.file "a.txt" 0 1 (some [0x61])]⟩))).lookup (fileKey n) =
        none := by
    intro n
    rw [AList.lookup_insert_ne (fileKey_ne_of_head (by decide) n).symm,
      AList.lookup_insert_ne (fileKey_ne_of_head (by decide) n).symm]
    rfl
  constructor
  · obtain ⟨m', _, hm', hmig, -, -, -, hread⟩ :=
      tryMigrateIfNeeded_ok.1 _ ⟨"node_modules", [.file "a.txt" 0 1 (some [0x61])]⟩ rfl rfl rfl hkeys
    exact ⟨m', hm', hread 0 [0x61] rfl, hmig.kept _ (by decide) _ rfl⟩
  · obtain ⟨m', hm', hmig⟩ := tryMigrateIfNeeded_ok.2
      (((∅ : Modules).insert versionKey (.bytes versionV1)).insert vfsKey
        (.v1Vfs (some ⟨"node_modules", []⟩))) ⟨"node_modules", []⟩ rfl rfl rfl
    exact ⟨m', hm', hmig.version⟩

/-- The two hypotheses of the v0 case are needed.  A v0 eszip whose tree is
rooted at `vfs`: the v1 tree keeps the name, and the second migration
refuses it.  A v0 eszip rooted at `node_modules` that also holds a module
under `vfs://0`: the migration succeeds, but the module move runs after the
walk has stored the file `a.txt` under `vfs://0`, so the migrated eszip
holds the module there and not the file's contents. -/
theorem tryMigrateIfNeeded_v0_not_preserved :
    tryMigrateIfNeeded ((∅ : Modules).insert vfsKey
        (.v0Vfs (some ⟨"vfs", [.file "a.txt" 0 1 (some [0x61])]⟩))) =
      some (.error "malformed vfs data (expected node_modules)") ∧
    ∃ m', tryMigrateIfNeeded ((((∅ : Modules).insert (fileKey 0) (.bytes [0x62])).insert vfsKey
        (.v0Vfs (some ⟨"node_modules", [.file "a.txt" 0 1 (some [0x61])]⟩)))) = some (.ok m') ∧
      m'.lookup (fileKey 0) = some (.bytes [0x62]) :=
  ⟨rfl, _, rfl, rfl⟩

end EdgeRuntime.Eszip
