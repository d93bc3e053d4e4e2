import EdgeRuntime.Eszip.Lookup
import EdgeRuntime.Verified.Paths

/-!
# Unbundling an eszip into a folder

`extract_eszip` (crates/sb_graph/lib.rs) writes the `file:` modules of an
archive into an output folder.  It takes the specifier with the fewest path
components (`find_lowest_path`, crates/sb_core/util/path.rs), its parent as
the entry directory, and for every `file:` specifier

* removes every occurrence of the entry directory's text from the specifier
  (`str::replace`), and reads the rest as a path;
* creates the folder of the module's parent under the output folder when the
  parent has a parent itself, and then the module's file, each at the output
  folder joined with the path made relative by `strip_prefix("/")`, or kept
  when it is relative already.

The specifiers are the archive's own: `parse_v2_header` keeps them as the
UTF-8 strings it reads, with no normalization.  A `..` after the entry
directory stays in the path that is joined to the output folder.

The archive is taken as `parse_v2_header`, the migration and
`read_data_section_all` leave it, with every slot loaded.  The file system is
the predicate `pathExists` (`Path::exists`), asked of the initial folders: a
folder created for an earlier module is not fed back, so the model may record
a `create_dir_all` the program skips, never miss one.  The writes themselves
succeed.

## Main results

* `extractEszip_escapes`: for every output folder and file system, an archive
  with `file:///app/main.ts` and `file:///app/../evil.ts` makes the
  extraction create the file `../evil.ts` under the output folder.
-/

namespace EdgeRuntime.Eszip

open EdgeRuntime.Verified.Paths EdgeRuntime.Verified.Fallible

/-- A call `extract_eszip` makes on the file system. -/
inductive FsCall
  | createDirAll (path : String)
  | createFile (path : String) (contents : List UInt8)
  deriving DecidableEq, Repr

/-- The message of `.unwrap()` on a `None`. -/
def unwrapNone : String := "called `Option::unwrap()` on a `None` value"

/-- `extract_file_specifiers`: the archive's specifiers that start with
`file:`, in the archive's order. -/
def extractFileSpecifiers (modules : EszipV2Modules) : List String :=
  modules.keys.filter fun specifier => "file:".toList.isPrefixOf specifier.toList

/-- `find_lowest_path`: the first path with the fewest components. -/
def findLowestPath (paths : List String) : Option String :=
  (paths.foldl (fun lowest path =>
      match lowest with
      | none => some (path, (components path).length)
      | some (_, count) =>
          if (components path).length < count then some (path, (components path).length)
          else lowest) none).map Prod.fst

/-- `ensure_unix_relative_path`; the error is a failed assertion. -/
def ensureUnixRelativePath (path : String) : Except String String :=
  if path.toList.head? = some '/' then .error "assertion failed: path.is_relative()"
  else if path.toList.head? = some '\\' then
    .error "assertion failed: !path.to_string_lossy().starts_with('\\\\')"
  else .ok path

/-- `path.strip_prefix("/").unwrap_or_else(|_| ensure_unix_relative_path(path))`. -/
def relativePath (path : String) : Except String String :=
  match stripRoot path with
  | some rel => .ok rel
  | none => ensureUnixRelativePath path

/-- `global_specifier.replace(entry_path, "")`, the module's path once the
entry directory is removed. -/
def cleanedSpecifier (entryPath globalSpecifier : String) : String :=
  String.ofList (strReplace entryPath.toList [] globalSpecifier.toList)

/-- The folder `create_module_path` creates for a module: the module's parent
under the output folder, when the parent has a parent itself and the folder
does not exist yet. -/
def moduleDirCalls (pathExists : String → Bool) (modulePath outputFolder : String) :
    Except String (List FsCall) :=
  match parentPath modulePath with
  | some parent =>
      if (parentPath parent).isSome then
        (relativePath parent).map fun rel =>
          if pathExists (joinPath outputFolder rel) then []
          else [FsCall.createDirAll (joinPath outputFolder rel)]
      else .ok []
  | none => .ok []

/-- `create_module_path`: the folder it creates for the module, and the path
of the module's file; the error is a panic's message. -/
def createModulePath (pathExists : String → Bool) (globalSpecifier entryPath outputFolder : String) :
    Except String (List FsCall × String) := do
  let dirCalls ← moduleDirCalls pathExists (cleanedSpecifier entryPath globalSpecifier) outputFolder
  let rel ← relativePath (cleanedSpecifier entryPath globalSpecifier)
  pure (dirCalls, joinPath outputFolder rel)

/-- `Option::unwrap`: the value, or the message of the panic. -/
def unwrapOption {α : Type} : Option α → Except String α
  | some a => .ok a
  | none => .error unwrapNone

/-- The loop of `extract_modules` over the specifiers, from the entry
directory: each module's folder and file, with the source `take_source`
takes from the archive. -/
def extractEach (pathExists : String → Bool) (entryPath outputFolder : String) :
    EszipV2Modules → List String → Except String (List FsCall)
  | _, [] => .ok []
  | modules, specifier :: rest => do
      let paths ← createModulePath pathExists specifier entryPath outputFolder
      let module ← unwrapOption (EszipV2.getModule modules specifier)
      let contents ← unwrapOption (EszipV2.takeSource modules module).1
      let calls ← extractEach pathExists entryPath outputFolder (EszipV2.takeSource modules module).2 rest
      pure (paths.1 ++ FsCall.createFile paths.2 contents :: calls)

/-- `extract_modules`: the entry directory is the parent of the lowest
path. -/
def extractModules (modules : EszipV2Modules) (pathExists : String → Bool) (specifiers : List String)
    (lowestPath outputFolder : String) : Except String (List FsCall) :=
  match parentPath lowestPath with
  | none => .error unwrapNone
  | some entryPath => extractEach pathExists entryPath outputFolder modules specifiers

/-- `extract_eszip` on a loaded archive: the calls it makes on the file
system, or the message of its panic. -/
def extractEszip (modules : EszipV2Modules) (pathExists : String → Bool) (outputFolder : String) :
    Except String (List FsCall) :=
  let mkdir := if pathExists outputFolder then [] else [FsCall.createDirAll outputFolder]
  let fileSpecifiers := extractFileSpecifiers modules
  match findLowestPath fileSpecifiers with
  | none => .error "Path seems to be invalid"
  | some lowestPath =>
      (extractModules modules pathExists fileSpecifiers lowestPath outputFolder).map (mkdir ++ ·)

/-! ## Where the files go -/

/-- The folders and the file of a module whose path, once the entry
directory is removed, is `modulePath`. -/
theorem createModulePath_of {pathExists : String → Bool} {globalSpecifier entryPath outputFolder : String}
    {modulePath rel : String} {dirCalls : List FsCall}
    (hclean : cleanedSpecifier entryPath globalSpecifier = modulePath)
    (hdirs : moduleDirCalls pathExists modulePath outputFolder = .ok dirCalls)
    (hrel : relativePath modulePath = .ok rel) :
    createModulePath pathExists globalSpecifier entryPath outputFolder =
      .ok (dirCalls, joinPath outputFolder rel) := by
  rw [createModulePath, hclean, hdirs, hrel]
  rfl

/-! ## A specifier that climbs out -/

/-- Removing the entry directory from a specifier that starts with it leaves
the rest, when the rest does not contain the directory's first character. -/
theorem cleanedSpecifier_append {entryPath rest : String} (hentry : entryPath.toList ≠ [])
    (hrest : ∀ c ∈ rest.toList, entryPath.toList.head? ≠ some c) :
    cleanedSpecifier entryPath (entryPath ++ rest) = rest := by
  obtain ⟨p, ps, hps⟩ := List.exists_cons_of_ne_nil hentry
  have hp : p ∉ rest.toList := fun hmem => hrest p hmem (by rw [hps]; rfl)
  rw [cleanedSpecifier, String.toList_append, strReplace_append_of_prefix [] hentry, List.nil_append,
    hps, strReplace_of_not_mem [] hp, String.ofList_toList]

/-- An archive with the entry module `file:///app/main.ts` and a second module
under `file:///app/../evil.ts`. -/
def escapingEszip (main evil : List UInt8) : EszipV2Modules :=
  ⟨[⟨"file:///app/main.ts", .module .javaScript (.ready main) (.ready [])⟩,
    ⟨"file:///app/../evil.ts", .module .javaScript (.ready evil) (.ready [])⟩],
    List.nodupKeys_cons.2 ⟨by simp, List.nodupKeys_singleton _⟩⟩

theorem createModulePath_main (pathExists : String → Bool) (outputFolder : String) :
    createModulePath pathExists "file:///app/main.ts" "file:///app" outputFolder =
      .ok ([], joinPath outputFolder "main.ts") := by
  have hclean : cleanedSpecifier "file:///app" "file:///app/main.ts" = "/main.ts" := by
    rw [show "file:///app/main.ts" = "file:///app" ++ "/main.ts" by decide]
    exact cleanedSpecifier_append (by decide) (by simp)
  -- the parent `/` has no parent: no folder
  have hdirs : moduleDirCalls pathExists "/main.ts" outputFolder = .ok [] := by
    rw [moduleDirCalls, show parentPath "/main.ts" = some "/" by decide]
    simp only [show parentPath "/" = none by decide, Option.isSome_none, Bool.false_eq_true,
      if_false]
  exact createModulePath_of hclean hdirs (by decide)

theorem createModulePath_evil (pathExists : String → Bool) (outputFolder : String) :
    createModulePath pathExists "file:///app/../evil.ts" "file:///app" outputFolder =
      .ok ((if pathExists (joinPath outputFolder "..") then []
          else [FsCall.createDirAll (joinPath outputFolder "..")]),
        joinPath outputFolder "../evil.ts") := by
  have hclean : cleanedSpecifier "file:///app" "file:///app/../evil.ts" = "/../evil.ts" := by
    rw [show "file:///app/../evil.ts" = "file:///app" ++ "/../evil.ts" by decide]
    exact cleanedSpecifier_append (by decide) (by simp)
  -- the parent `/..` has the parent `/`: the folder `..` under the output folder
  have hdirs : moduleDirCalls pathExists "/../evil.ts" outputFolder =
      .ok (if pathExists (joinPath outputFolder "..") then []
        else [FsCall.createDirAll (joinPath outputFolder "..")]) := by
    rw [moduleDirCalls, show parentPath "/../evil.ts" = some "/.." by decide]
    simp only [show parentPath "/.." = some "/" by decide, Option.isSome_some, if_true,
      show relativePath "/.." = .ok ".." by decide]
    rfl
  exact createModulePath_of hclean hdirs (by decide)

theorem extractEszip_escapes (pathExists : String → Bool) (outputFolder : String)
    (main evil : List UInt8) :
    ∃ calls, extractEszip (escapingEszip main evil) pathExists outputFolder = .ok calls ∧
      FsCall.createFile (joinPath outputFolder "../evil.ts") evil ∈ calls ∧
      Component.parentDir ∈ components "../evil.ts" := by
  have hkeys : (escapingEszip main evil).keys = ["file:///app/main.ts", "file:///app/../evil.ts"] :=
    rfl
  have hspecs : extractFileSpecifiers (escapingEszip main evil) =
      ["file:///app/main.ts", "file:///app/../evil.ts"] := by
    rw [extractFileSpecifiers, hkeys]
    decide
  have hlowest : findLowestPath ["file:///app/main.ts", "file:///app/../evil.ts"] =
      some "file:///app/main.ts" := by decide
  have hentry : parentPath "file:///app/main.ts" = some "file:///app" := by decide
  have hrun : extractEszip (escapingEszip main evil) pathExists outputFolder =
      .ok ((if pathExists outputFolder then [] else [FsCall.createDirAll outputFolder]) ++
        ([] ++ FsCall.createFile (joinPath outputFolder "main.ts") main ::
          ((if pathExists (joinPath outputFolder "..") then []
              else [FsCall.createDirAll (joinPath outputFolder "..")]) ++
            [FsCall.createFile (joinPath outputFolder "../evil.ts") evil]))) := by
    rw [extractEszip]
    simp only [hspecs, hlowest]
    rw [extractModules, hentry]
    simp only [extractEach, createModulePath_main, createModulePath_evil]
    rfl
  exact ⟨_, hrun, by simp, by decide⟩

/-- Extracting into `/srv/out`, with no folder there yet, writes
`/srv/out/../evil.ts`. -/
theorem extractEszip_escapes_srv :
    ∃ calls, extractEszip (escapingEszip [0x31] [0x32]) (fun _ => false) "/srv/out" = .ok calls ∧
      FsCall.createFile "/srv/out/../evil.ts" [0x32] ∈ calls := by
  obtain ⟨calls, hrun, hmem, -⟩ := extractEszip_escapes (fun _ => false) "/srv/out" [0x31] [0x32]
  rw [show joinPath "/srv/out" "../evil.ts" = "/srv/out/../evil.ts" by decide] at hmem
  exact ⟨calls, hrun, hmem⟩

end EdgeRuntime.Eszip
