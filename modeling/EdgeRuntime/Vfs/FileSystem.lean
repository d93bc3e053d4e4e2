import EdgeRuntime.Vfs.FileBacked

/-!
# The read-only file system of a compiled bundle

`DenoCompileFileSystem` (crates/sb_fs/file_system.rs) is the `FileSystem` a
worker with an eszip's npm tree runs on.  Each of its methods looks at the
paths it is given: a call about a path within the served tree is answered
by `FileBackedVfs`, or refused with `NotSupported` when it would change
something, and every other call goes to `RealFs`.  `copy_file` from a served
file reads the file from the eszip and writes it to the real destination.

The sync and async twin of a method take the same arguments and do the same
thing (the sync `copy_file` runs the async copy on a thread it joins), so one
call stands for both.  `RealFs` is left as it is: the model says which call
reaches it.

## Main results

* `realWrites_call`: the served tree is read-only: every path a call has
  `RealFs` create, change or remove is outside it, whether the call is
  forwarded or is the write of a `copy_file` from a served file, and a call
  all of whose paths lie within the tree never reaches `RealFs`.
-/

namespace EdgeRuntime.Vfs

/-- `deno_fs::FsFileType`. -/
inductive FsFileType
  | file
  | directory
  | junction
  deriving DecidableEq, Repr

/-- `deno_fs::OpenOptions`. -/
structure OpenOptions where
  read : Bool
  write : Bool
  create : Bool
  truncate : Bool
  append : Bool
  createNew : Bool
  mode : Option UInt32
  deriving DecidableEq, Repr

/-- A call of `deno_fs::FileSystem`, with its arguments. -/
inductive FileSystemCall
  | cwd
  | tmpDir
  | chdir (path : List String)
  | umask (mask : Option UInt32)
  | openFile (path : List String) (options : OpenOptions)
  | mkdir (path : List String) (recursive : Bool) (mode : UInt32)
  | chmod (path : List String) (mode : UInt32)
  | chown (path : List String) (uid gid : Option UInt32)
  | lchown (path : List String) (uid gid : Option UInt32)
  | remove (path : List String) (recursive : Bool)
  | copyFile (oldpath newpath : List String)
  | cp (path newPath : List String)
  | stat (path : List String)
  | lstat (path : List String)
  | realpath (path : List String)
  | readDir (path : List String)
  | rename (oldpath newpath : List String)
  | link (oldpath newpath : List String)
  | symlink (oldpath newpath : List String) (fileType : Option FsFileType)
  | readLink (path : List String)
  | truncate (path : List String) (len : UInt64)
  | utime (path : List String) (atimeSecs : Int64) (atimeNanos : UInt32) (mtimeSecs : Int64)
      (mtimeNanos : UInt32)
  | lutime (path : List String) (atimeSecs : Int64) (atimeNanos : UInt32) (mtimeSecs : Int64)
      (mtimeNanos : UInt32)
  deriving DecidableEq, Repr

/-- What the served tree answers. -/
inductive VfsAnswer
  | file (f : VfsFile)
  | stat (s : FsStat)
  | path (p : List String)
  | entries (es : List FsDirEntry)
  deriving DecidableEq, Repr

/-- What a call of `DenoCompileFileSystem` does. -/
inductive FsOutcome
  /-- The call goes to `RealFs` with these arguments. -/
  | realFs (call : FileSystemCall)
  /-- The served tree answers. -/
  | vfs (answer : VfsAnswer)
  /-- `FsError::NotSupported`. -/
  | notSupported
  /-- An error of the served tree, through `?`. -/
  | failed (e : ApiError)
  /-- `RealFs::write_file_async` of `data` to `path`, which creates or
  truncates the file. -/
  | writeReal (path : List String) (data : List UInt8)
  deriving DecidableEq, Repr

/-- `DenoCompileFileSystem`. -/
structure DenoCompileFileSystem where
  vfs : FileBackedVfs

namespace DenoCompileFileSystem

variable (fs : DenoCompileFileSystem) (fuel : Nat)

/-- `error_if_in_vfs` of each path in turn, then the call to `RealFs`: the
methods that would change a path. -/
def guarded (paths : List (List String)) (call : FileSystemCall) : FsOutcome :=
  if paths.any fs.vfs.isPathWithin then .notSupported else .realFs call

/-- The methods that read a path: the served tree's answer for a path within
it, `RealFs` for any other. -/
def withinOr (path : List String) (call : FileSystemCall) (answer : Option (Except ApiError VfsAnswer)) :
    Option FsOutcome :=
  if fs.vfs.isPathWithin path then
    answer.map fun
      | .ok a => .vfs a
      | .error e => .failed e
  else some (.realFs call)

/-- `copy_to_real_path_async`: the file at `oldpath`, read whole, written to
`newpath` on the real file system. -/
def copyToRealPathAsync (oldpath newpath : List String) : Option FsOutcome :=
  (fs.vfs.fileEntry fuel oldpath).map fun
    | .error e => .failed e
    | .ok file =>
        match fs.vfs.readFileAll file with
        | .error e => .failed (.io e)
        | .ok bytes => .writeReal newpath bytes

/-- The `FileSystem` methods of `DenoCompileFileSystem`. -/
def call : FileSystemCall → Option FsOutcome
  | c@.cwd => some (.realFs c)
  | c@.tmpDir => some (.realFs c)
  | c@(.chdir path) => some (fs.guarded [path] c)
  | c@(.umask _) => some (.realFs c)
  | c@(.openFile path _) =>
      fs.withinOr path c ((fs.vfs.openFile fuel path).map fun r => r.map .file)
  | c@(.mkdir path _ _) => some (fs.guarded [path] c)
  | c@(.chmod path _) => some (fs.guarded [path] c)
  | c@(.chown path _ _) => some (fs.guarded [path] c)
  | c@(.lchown path _ _) => some (fs.guarded [path] c)
  | c@(.remove path _) => some (fs.guarded [path] c)
  | c@(.copyFile oldpath newpath) =>
      if fs.vfs.isPathWithin newpath then some .notSupported
      else if fs.vfs.isPathWithin oldpath then fs.copyToRealPathAsync fuel oldpath newpath
      else some (.realFs c)
  -- only the destination is checked: the source goes to `RealFs` as it is
  | c@(.cp _ newPath) => some (fs.guarded [newPath] c)
  | c@(.stat path) =>
      fs.withinOr path c ((fs.vfs.stat fuel path).map fun r => (r.mapError .io).map .stat)
  | c@(.lstat path) =>
      fs.withinOr path c ((fs.vfs.lstat fuel path).map fun r => (r.mapError .io).map .stat)
  | c@(.realpath path) =>
      fs.withinOr path c ((fs.vfs.canonicalize fuel path).map fun r => (r.mapError .io).map .path)
  | c@(.readDir path) =>
      fs.withinOr path c ((fs.vfs.readDir fuel path).map fun r => r.map .entries)
  | c@(.rename oldpath newpath) => some (fs.guarded [oldpath, newpath] c)
  | c@(.link oldpath newpath) => some (fs.guarded [oldpath, newpath] c)
  | c@(.symlink oldpath newpath _) => some (fs.guarded [oldpath, newpath] c)
  | c@(.readLink path) =>
      fs.withinOr path c ((fs.vfs.readLink fuel path).map fun r => (r.mapError .io).map .path)
  | c@(.truncate path _) => some (fs.guarded [path] c)
  | c@(.utime path _ _ _ _) => some (fs.guarded [path] c)
  | c@(.lutime path _ _ _ _) => some (fs.guarded [path] c)

end DenoCompileFileSystem

/-! ## What reaches the real file system -/

/-- The paths a call creates, changes or removes. -/
def FileSystemCall.writes : FileSystemCall → List (List String)
  | .openFile path o => if o.write || o.create || o.truncate || o.append || o.createNew then [path] else []
  | .mkdir path _ _ | .chmod path _ | .chown path _ _ | .lchown path _ _ | .remove path _
  | .truncate path _ | .utime path _ _ _ _ | .lutime path _ _ _ _ => [path]
  | .copyFile _ newpath | .cp _ newpath | .link _ newpath | .symlink _ newpath _ => [newpath]
  | .rename oldpath newpath => [oldpath, newpath]
  | .cwd | .tmpDir | .chdir _ | .umask _ | .stat _ | .lstat _ | .realpath _ | .readDir _
  | .readLink _ => []

/-- The paths a call is about. -/
def FileSystemCall.paths : FileSystemCall → List (List String)
  | .chdir path | .openFile path _ | .mkdir path _ _ | .chmod path _ | .chown path _ _
  | .lchown path _ _ | .remove path _ | .stat path | .lstat path | .realpath path | .readDir path
  | .readLink path | .truncate path _ | .utime path _ _ _ _ | .lutime path _ _ _ _ => [path]
  | .copyFile oldpath newpath | .cp oldpath newpath | .rename oldpath newpath
  | .link oldpath newpath | .symlink oldpath newpath _ => [oldpath, newpath]
  | .cwd | .tmpDir | .umask _ => []

/-- The paths an outcome has `RealFs` create, change or remove. -/
def FsOutcome.realWrites : FsOutcome → List (List String)
  | .realFs c => c.writes
  | .writeReal path _ => [path]
  | .vfs _ | .notSupported | .failed _ => []

/-- Whether an outcome reaches `RealFs` at all. -/
def FsOutcome.reachesRealFs : FsOutcome → Bool
  | .realFs _ | .writeReal _ _ => true
  | .vfs _ | .notSupported | .failed _ => false

namespace DenoCompileFileSystem

variable {fs : DenoCompileFileSystem} {fuel : Nat} {o : FsOutcome}

theorem guarded_realFs {paths : List (List String)} {c c' : FileSystemCall}
    (h : fs.guarded paths c = .realFs c') :
    c' = c ∧ ∀ p ∈ paths, fs.vfs.isPathWithin p = false := by
  unfold guarded at h
  split at h
  · cases h
  · rename_i hnone
    cases h
    refine ⟨rfl, fun p hp => ?_⟩
    simpa using List.any_eq_false.1 (by simpa using hnone) p hp

/-- A guarded call reaches `RealFs` only with every path it checked outside
the served tree. -/
theorem realWrites_guarded {paths : List (List String)} {c : FileSystemCall}
    (hw : c.writes ⊆ paths) : ∀ p ∈ (fs.guarded paths c).realWrites, fs.vfs.isPathWithin p = false := by
  intro p hp
  cases hg : fs.guarded paths c with
  | realFs c' =>
      obtain ⟨rfl, hout⟩ := guarded_realFs hg
      rw [hg] at hp
      exact hout p (hw hp)
  | writeReal _ _ =>
      unfold guarded at hg
      split at hg <;> cases hg
  | _ => simp [hg, FsOutcome.realWrites] at hp

/-- A reading call reaches `RealFs` only with its path outside the served
tree, and the served tree's answers write nothing. -/
theorem realWrites_withinOr {path : List String} {c : FileSystemCall}
    {answer : Option (Except ApiError VfsAnswer)} (hw : c.writes ⊆ [path])
    (h : fs.withinOr path c answer = some o) : ∀ p ∈ o.realWrites, fs.vfs.isPathWithin p = false := by
  intro p hp
  unfold withinOr at h
  split at h
  · obtain ⟨r, -, rfl⟩ := Option.map_eq_some_iff.1 h
    cases r <;> simp [FsOutcome.realWrites] at hp
  · rename_i hout
    cases h
    have hpath : p = path := List.mem_singleton.1 (hw hp)
    subst hpath
    simpa using hout

/-- The copy of a served file writes only its destination. -/
theorem realWrites_copyToRealPathAsync {oldpath newpath : List String}
    (h : fs.copyToRealPathAsync fuel oldpath newpath = some o) :
    o.realWrites ⊆ [newpath] := by
  unfold copyToRealPathAsync at h
  obtain ⟨r, -, rfl⟩ := Option.map_eq_some_iff.1 h
  intro p hp
  rcases r with e | file
  · simp [FsOutcome.realWrites] at hp
  · dsimp only at hp
    split at hp <;> simp_all [FsOutcome.realWrites]

/-- A guarded call with a checked path within the served tree is refused. -/
theorem reachesRealFs_guarded {paths : List (List String)} {c : FileSystemCall} {p : List String}
    (hp : p ∈ paths) (hin : fs.vfs.isPathWithin p = true) : (fs.guarded paths c).reachesRealFs = false := by
  unfold guarded
  rw [if_pos (List.any_eq_true.2 ⟨p, hp, hin⟩)]
  rfl

/-- A reading call about a path within the served tree is answered by it. -/
theorem reachesRealFs_withinOr {path : List String} {c : FileSystemCall}
    {answer : Option (Except ApiError VfsAnswer)} (hin : fs.vfs.isPathWithin path = true)
    (h : fs.withinOr path c answer = some o) : o.reachesRealFs = false := by
  unfold withinOr at h
  rw [if_pos hin] at h
  obtain ⟨r, -, rfl⟩ := Option.map_eq_some_iff.1 h
  cases r <;> rfl

/-- Every path a call has `RealFs` create, change or remove, whether the
call is forwarded or is the write of a `copy_file` from a served file, is
outside the tree. -/
theorem realWrites_outside (c : FileSystemCall) (h : fs.call fuel c = some o) :
    ∀ p ∈ o.realWrites, fs.vfs.isPathWithin p = false := by
  cases c with
  | openFile path options =>
      exact realWrites_withinOr (by simp only [FileSystemCall.writes]; split <;> simp) h
  | stat path | lstat path | realpath path | readDir path | readLink path =>
      exact realWrites_withinOr (by simp [FileSystemCall.writes]) h
  | copyFile oldpath newpath =>
      -- the one call that writes what the served tree holds
      simp only [call] at h
      split at h
      · cases h
        simp [FsOutcome.realWrites]
      · rename_i hnew
        split at h
        · intro p hp
          rw [List.mem_singleton.1 (realWrites_copyToRealPathAsync h hp)]
          simpa using hnew
        · cases h
          simpa [FsOutcome.realWrites, FileSystemCall.writes] using hnew
  | cwd | tmpDir | umask _ =>
      cases h
      simp [FsOutcome.realWrites, FileSystemCall.writes]
  | chdir _ | mkdir _ _ _ | chmod _ _ | chown _ _ _ | lchown _ _ _ | remove _ _ | truncate _ _
  | utime _ _ _ _ _ | lutime _ _ _ _ _ | cp _ _ | rename _ _ | link _ _ | symlink _ _ _ =>
      -- the guarded methods: each checks every path it writes
      cases h
      exact realWrites_guarded (by simp [FileSystemCall.writes])

/-- A call all of whose paths lie within the served tree never reaches
`RealFs`. -/
theorem reachesRealFs_within (c : FileSystemCall) (h : fs.call fuel c = some o)
    (hne : c.paths ≠ []) (hall : ∀ p ∈ c.paths, fs.vfs.isPathWithin p = true) :
    o.reachesRealFs = false := by
  cases c with
  | cwd | tmpDir | umask _ => exact absurd rfl hne
  | openFile path _ | stat path | lstat path | realpath path | readDir path | readLink path =>
      exact reachesRealFs_withinOr (hall path (by simp [FileSystemCall.paths])) h
  | copyFile oldpath newpath =>
      simp only [call, if_pos (hall newpath (by simp [FileSystemCall.paths]))] at h
      cases h
      rfl
  | chdir path | mkdir path _ _ | chmod path _ | chown path _ _ | lchown path _ _ | remove path _
  | truncate path _ | utime path _ _ _ _ | lutime path _ _ _ _ =>
      cases h
      exact reachesRealFs_guarded List.mem_cons_self (hall path (by simp [FileSystemCall.paths]))
  | cp _ newpath =>
      -- `cp` checks its destination only
      cases h
      exact reachesRealFs_guarded List.mem_cons_self (hall newpath (by simp [FileSystemCall.paths]))
  | rename oldpath _ | link oldpath _ | symlink oldpath _ _ =>
      cases h
      exact reachesRealFs_guarded List.mem_cons_self (hall oldpath (by simp [FileSystemCall.paths]))

/-- The served tree is read-only.  Every path a call of
`DenoCompileFileSystem` has `RealFs` create, change or remove lies outside
the tree, and a call all of whose paths lie within it is answered by the
tree, fails with the tree's error, or is refused with `NotSupported`. -/
theorem realWrites_call (c : FileSystemCall) (h : fs.call fuel c = some o) :
    (∀ p ∈ o.realWrites, fs.vfs.isPathWithin p = false) ∧
      (c.paths ≠ [] → (∀ p ∈ c.paths, fs.vfs.isPathWithin p = true) → o.reachesRealFs = false) :=
  ⟨realWrites_outside c h, reachesRealFs_within c h⟩

/-- Over the tree under `/vfs` with a file `a/f` of one byte, `copy_file` of
`/vfs/a/f` to `/tmp/f` writes that byte to `/tmp/f`, outside the tree, and
`copy_file` of it to `/vfs/l/g`, within the tree, is refused. -/
theorem realWrites_call_copyFile :
    ((DenoCompileFileSystem.mk (FileBackedVfs.mk (fun key => if key = "vfs://0" then some [7] else none)
        ⟨⟨"vfs", [.dir "a" [.file "f" 0 ⟨"vfs://0", 1⟩], .symlink "l" ["a"]]⟩, ["vfs"]⟩)).call 10
        (.copyFile ["vfs", "a", "f"] ["tmp", "f"]) = some (.writeReal ["tmp", "f"] [7]) ∧
      ∀ p ∈ (FsOutcome.writeReal ["tmp", "f"] [7]).realWrites,
        (FileBackedVfs.mk (fun key => if key = "vfs://0" then some [7] else none)
          ⟨⟨"vfs", [.dir "a" [.file "f" 0 ⟨"vfs://0", 1⟩], .symlink "l" ["a"]]⟩, ["vfs"]⟩).isPathWithin p =
          false) ∧
    ((DenoCompileFileSystem.mk (FileBackedVfs.mk (fun key => if key = "vfs://0" then some [7] else none)
        ⟨⟨"vfs", [.dir "a" [.file "f" 0 ⟨"vfs://0", 1⟩], .symlink "l" ["a"]]⟩, ["vfs"]⟩)).call 10
        (.copyFile ["vfs", "a", "f"] ["vfs", "l", "g"]) = some .notSupported ∧
      FsOutcome.notSupported.reachesRealFs = false) := by
  have hout : (DenoCompileFileSystem.mk (FileBackedVfs.mk (fun key => if key = "vfs://0" then some [7] else none)
      ⟨⟨"vfs", [.dir "a" [.file "f" 0 ⟨"vfs://0", 1⟩], .symlink "l" ["a"]]⟩, ["vfs"]⟩)).call 10
      (.copyFile ["vfs", "a", "f"] ["tmp", "f"]) = some (.writeReal ["tmp", "f"] [7]) := by
    decide +kernel
  have hin : (DenoCompileFileSystem.mk (FileBackedVfs.mk (fun key => if key = "vfs://0" then some [7] else none)
      ⟨⟨"vfs", [.dir "a" [.file "f" 0 ⟨"vfs://0", 1⟩], .symlink "l" ["a"]]⟩, ["vfs"]⟩)).call 10
      (.copyFile ["vfs", "a", "f"] ["vfs", "l", "g"]) = some .notSupported := by
    decide +kernel
  exact ⟨⟨hout, (realWrites_call _ hout).1⟩,
    ⟨hin, (realWrites_call _ hin).2 (by simp [FileSystemCall.paths]) (by decide +kernel)⟩⟩

/-- `cp` checks only its destination: `cp` of the same served file goes to
`RealFs` as it is, which reads `/vfs/a/f` from the disk where `copy_file`
read it from the eszip. -/
example :
    (DenoCompileFileSystem.mk (FileBackedVfs.mk (fun key => if key = "vfs://0" then some [7] else none)
        ⟨⟨"vfs", [.dir "a" [.file "f" 0 ⟨"vfs://0", 1⟩], .symlink "l" ["a"]]⟩, ["vfs"]⟩)).call 10
        (.cp ["vfs", "a", "f"] ["tmp", "f"]) = some (.realFs (.cp ["vfs", "a", "f"] ["tmp", "f"])) := by
  decide +kernel

end DenoCompileFileSystem

end EdgeRuntime.Vfs
