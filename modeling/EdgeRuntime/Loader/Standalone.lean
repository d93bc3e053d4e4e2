import EdgeRuntime.Eszip.Lookup
import EdgeRuntime.Verified.Paths

/-!
# The module loader of a standalone worker

`EmbeddedModuleLoader` (crates/sb_module_loader/standalone/
standalone_module_loader.rs) is the `ModuleLoader` of a worker that runs an
eszip.  `resolve` turns an import into a URL: a specifier inside an npm
package goes to the node resolver, any other to deno's workspace resolver,
and a URL that resolver maps as it is goes through `npm:` and `jsr:` handling
and then `handle_if_in_node_modules`, which hands any other URL back.
`load` reads a `data:` URL itself, hands a URL inside an npm package to the
npm loader, and looks any other URL up in the eszip through
`WorkspaceEszip::get_module`; a module found is decoded as UTF-8 and handed
to V8 with a type chosen by its kind, where `OpaqueData` is `unreachable!()`.

The eszip holds more than modules: `generate_binary_eszip` stores the files
of the npm packages under `vfs://N`, the version marker, the VFS and the
source code under fixed keys, and `include_glob_patterns_in_eszip` the static
files under `static:` specifiers, all as opaque data.  The repository reads
them back through `LazyLoadableEszip::ensure_module` (`ensure_version`, the
static file system), which refuses only JSONC: an opaque entry is a module to
it.  A URL such as `static:hello.txt` is mapped as it is by the resolvers, so
an import of it reaches `load` with an opaque module.

What the loader calls outside the repository is a `Host`: the URL parser,
deno's resolvers, the npm loader, the data-URL decoder and the base64
encoder.  `EszipV2::get_module` and `get_import_map` are the eszip crate's:
a lookup that follows redirects, then a filter on the kind.  Slots are read
after the lazy loads `ensure_data` spawns have filled them.  A panic is an
outcome of its own, `Failure.panic`.

## Main results

* `load_opaqueData_panics`: for every host that maps a URL as it is, an eszip
  whose entry at that URL is opaque data with UTF-8 bytes makes `resolve`
  return the URL and `load` panic.
-/

namespace EdgeRuntime.Loader

open EdgeRuntime.Verified EdgeRuntime.Verified.Paths EdgeRuntime.Eszip

/-! ## What the loader calls outside the repository -/

/-- `deno_core::ResolutionKind`. -/
inductive ResolutionKind
  | mainModule
  | import
  | dynamicImport
  deriving DecidableEq, Repr

/-- The `Debug` text of a `ResolutionKind`. -/
def ResolutionKind.debug : ResolutionKind → String
  | .mainModule => "MainModule"
  | .import => "Import"
  | .dynamicImport => "DynamicImport"

/-- `PackageJsonDepValue`. -/
inductive PackageJsonDepValue
  | req (req : String)
  | workspace (versionReq : String)

/-- `MappedResolution`, with the fields `resolve` reads. -/
inductive MappedResolution
  | packageJson (depResult : Except String PackageJsonDepValue) (subPath : Option String)
      (aliasName : String)
  | normal (specifier : Url)
  | importMap (specifier : Url)

/-- A `MappedResolutionError`: its text, and whether it is an unmapped bare
specifier. -/
structure MappedResolutionError where
  message : String
  unmappedBareSpecifier : Bool

/-- The host of the loader: what `resolve` and `load` call outside this
repository, each error as its text. -/
structure Host where
  /-- `ModuleSpecifier::parse`. -/
  parseSpecifier : String → Except String Url
  /-- `std::env::current_dir()`, `None` when it fails. -/
  currentDir : Option String
  /-- `deno_core::resolve_path`. -/
  resolvePath : String → String → Except String Url
  /-- `CliNodeResolver::resolve_if_in_npm_package`. -/
  resolveIfInNpmPackage : String → Url → Option (Except String (Option Url))
  /-- `WorkspaceResolver::resolve`. -/
  workspaceResolve : String → Url → Except MappedResolutionError MappedResolution
  /-- `CliNodeResolver::resolve_req_with_sub_path`. -/
  resolveReqWithSubPath : String → Option String → Url → Except String Url
  /-- `resolve_workspace_pkg_json_folder_for_pkg_json_dep`, then
  `resolve_package_sub_path_from_deno_module`. -/
  resolveWorkspacePackage : String → String → Option String → Url → Except String Url
  /-- `NpmPackageReqReference::from_specifier`. -/
  npmReqReference : Url → Option String
  /-- `CliNodeResolver::resolve_req_reference`. -/
  resolveReqReference : String → Url → Except String Url
  /-- `CliNodeResolver::handle_if_in_node_modules`. -/
  handleIfInNodeModules : Url → Except String Url
  /-- `CliNodeResolver::resolve`. -/
  nodeResolve : String → Url → Except String (Option Url)
  /-- `CliNodeResolver::in_npm_package`. -/
  inNpmPackage : Url → Bool
  /-- `NpmModuleLoader::load`: whether the media type is JSON, the code and
  the URL found. -/
  loadNpm : Url → Except String (Bool × String × Url)
  /-- `RawDataUrl::parse`, then `decode`. -/
  decodeDataUrl : Url → Except String String
  /-- `EszipRelativeFileBaseUrl::specifier_key` against the root directory. -/
  specifierKey : Url → String
  /-- `root_dir_url.join`. -/
  joinRootDir : String → Except String Url
  /-- `BASE64_STANDARD.encode_string`. -/
  base64 : List UInt8 → String

/-- The message of `.unwrap()` on an `Err`. -/
def unwrapErr : String := "called `Result::unwrap()` on an `Err` value"

/-! ## `WorkspaceEszip::get_module` -/

/-- `WorkspaceEszipModule`. -/
structure WorkspaceEszipModule where
  specifier : Url
  inner : EszipModule

/-- `WorkspaceEszip::get_module`; the error is a panic's message.  A `file:`
URL is looked up by its key relative to the root directory, any other by its
text. -/
def WorkspaceEszip.getModule (host : Host) (modules : EszipV2Modules) (specifier : Url) :
    Except String (Option WorkspaceEszipModule) :=
  if specifier.scheme = "file" then
    match LazyLoadableEszip.ensureModule modules (host.specifierKey specifier) with
    | none => .ok none
    | some module =>
        match host.joinRootDir module.specifier with
        | .ok url => .ok (some ⟨url, module⟩)
        | .error _ => .error unwrapErr
  else
    match LazyLoadableEszip.ensureModule modules specifier.asStr with
    | none => .ok none
    | some module =>
        match host.parseSpecifier module.specifier with
        | .ok url => .ok (some ⟨url, module⟩)
        | .error _ => .error unwrapErr

/-- A URL that is not `file:` is looked up by its text, and the module comes
back with its specifier parsed. -/
theorem WorkspaceEszip.getModule_of_ensureModule (host : Host) {modules : EszipV2Modules}
    {m : EszipModule} {url found : Url} (hfile : url.scheme ≠ "file")
    (hm : LazyLoadableEszip.ensureModule modules url.asStr = some m)
    (hparse : host.parseSpecifier m.specifier = .ok found) :
    WorkspaceEszip.getModule host modules url = .ok (some ⟨found, m⟩) := by
  rw [WorkspaceEszip.getModule, if_neg hfile, hm]
  simp only [hparse]

/-! ## `resolve` -/

section Resolve

variable (host : Host) (modules : EszipV2Modules)

/-- The referrer `resolve` resolves against: the current directory for the
main module, else the referrer parsed. -/
def resolveReferrer (referrer : String) (kind : ResolutionKind) : Except (Failure String) Url :=
  if referrer = "." then
    if kind ≠ .mainModule then
      .error (.err ("Expected to resolve main module, got " ++ kind.debug ++ " instead."))
    else
      match host.currentDir with
      | none => .error (.panic unwrapErr)
      | some currentDir =>
          match host.resolvePath "." currentDir with
          | .ok url => .ok url
          | .error e => .error (.err e)
  else
    match host.parseSpecifier referrer with
    | .ok url => .ok url
    | .error e => .error (.err ("Referrer uses invalid specifier: " ++ e))

/-- The arm of `resolve` for a specifier the workspace resolver maps to a
URL: an `npm:` reference, a `jsr:` module of the eszip, or whatever
`handle_if_in_node_modules` makes of it. -/
def resolveMapped (referrer specifier : Url) : Except (Failure String) Url :=
  match host.npmReqReference specifier with
  | some reference => (host.resolveReqReference reference referrer).mapError .err
  | none =>
      if specifier.scheme = "jsr" then
        match WorkspaceEszip.getModule host modules specifier with
        | .error message => .error (.panic message)
        | .ok (some module) => .ok module.specifier
        | .ok none => (host.handleIfInNodeModules specifier).mapError .err
      else (host.handleIfInNodeModules specifier).mapError .err

/-- `EmbeddedModuleLoader::resolve`. -/
def resolve (specifier referrer : String) (kind : ResolutionKind) : Except (Failure String) Url := do
  let referrer ← resolveReferrer host referrer kind
  match host.resolveIfInNpmPackage specifier referrer with
  | some result =>
      match result with
      | .ok (some url) => .ok url
      | .ok none => .error (.err "not found")
      | .error e => .error (.err e)
  | none =>
      match host.workspaceResolve specifier referrer with
      | .ok (.packageJson depResult subPath aliasName) =>
          match depResult with
          | .error e => .error (.err e)
          | .ok (.req req) => (host.resolveReqWithSubPath req subPath referrer).mapError .err
          | .ok (.workspace versionReq) =>
              (host.resolveWorkspacePackage aliasName versionReq subPath referrer).mapError .err
      | .ok (.normal url) => resolveMapped host modules referrer url
      | .ok (.importMap url) => resolveMapped host modules referrer url
      | .error err =>
          if err.unmappedBareSpecifier ∧ referrer.scheme = "file" then
            match host.nodeResolve specifier referrer with
            | .ok (some url) => .ok url
            | _ => .error (.err err.message)
          else .error (.err err.message)

end Resolve

/-! ## `load` -/

/-- `deno_core::ModuleType`, as far as `load` picks it. -/
inductive ModuleType
  | javaScript
  | json
  deriving DecidableEq, Repr

/-- `ModuleSource`: the type, the code, the URL asked for and the URL found. -/
structure ModuleSource where
  moduleType : ModuleType
  code : String
  specifier : Url
  found : Url

/-- The code `load` hands to V8: with `include_source_map` and a source map,
the source map appended as a base64 data URL, after one more newline when the
code already ends with one. -/
def withSourceMap (host : Host) (includeSourceMap : Bool) (code : String)
    (sourceMap : Option (List UInt8)) : String :=
  if !includeSourceMap then code
  else
    match sourceMap with
    | none => code
    | some sourceMap =>
        let src := if code.endsWith "\n" then code ++ "\n" else code
        src ++ "//# sourceMappingURL=data:application/json;base64," ++ host.base64 sourceMap

/-- The module type of an eszip module's kind, and the end of the future for
the kinds V8 cannot take. -/
def moduleTypeOf : ModuleKind → Except (Failure String) ModuleType
  | .javaScript => .ok .javaScript
  | .json => .ok .json
  | .jsonc => .error (.err "jsonc modules not supported")
  | .opaqueData => .error (.panic "internal error: entered unreachable code")

/-- The future `load` returns for a module of the eszip. -/
def loadEszipModule (host : Host) (includeSourceMap : Bool) (original : Url)
    (module : WorkspaceEszipModule) : Except (Failure String) ModuleSource :=
  match slotBytes module.inner.source with
  | none => .error (.err ("Module not found: " ++ original.asStr))
  | some bytes =>
      match decodeUtf8 bytes with
      | none => .error (.err "Module source is not utf-8")
      | some code =>
          let code := withSourceMap host includeSourceMap code (slotBytes module.inner.sourceMap)
          (moduleTypeOf module.inner.kind).map fun moduleType =>
            ⟨moduleType, code, original, module.specifier⟩

/-- `EmbeddedModuleLoader::load`, with its future run to the end. -/
def load (host : Host) (modules : EszipV2Modules) (includeSourceMap : Bool) (original : Url) :
    Except (Failure String) ModuleSource :=
  if original.scheme = "data" then
    match host.decodeDataUrl original with
    | .ok text => .ok ⟨.javaScript, text, original, original⟩
    | .error e => .error (.err e)
  else if host.inNpmPackage original then
    match host.loadNpm original with
    | .ok (isJson, code, found) =>
        .ok ⟨if isJson then .json else .javaScript, code, original, found⟩
    | .error e => .error (.err e)
  else
    match WorkspaceEszip.getModule host modules original with
    | .error message => .error (.panic message)
    | .ok none => .error (.err ("Module not found: " ++ original.asStr))
    | .ok (some module) => loadEszipModule host includeSourceMap original module

/-! ## An import of opaque data -/

/-- What a host does with a URL it maps as it is: the referrer parses, the
specifier is not inside an npm package, the workspace resolver maps it to
`url` (no import map entry, no package.json dependency), `url` is no `npm:`
reference, the node resolver hands it back, it parses back from its text, and
it is not inside an npm package.  Deno's resolvers do so for a URL whose
scheme they do not know, such as `static:` or `vfs:`. -/
structure MapsAsItIs (host : Host) (specifier referrer : String) (r url : Url) : Prop where
  parse_referrer : host.parseSpecifier referrer = .ok r
  not_in_npm_package : host.resolveIfInNpmPackage specifier r = none
  normal : host.workspaceResolve specifier r = .ok (.normal url)
  not_npm : host.npmReqReference url = none
  passes_node_modules : host.handleIfInNodeModules url = .ok url
  parse_url : host.parseSpecifier url.asStr = .ok url
  not_in_npm_package_url : host.inNpmPackage url = false

section MapsAsItIs

variable {host : Host} {modules : EszipV2Modules} {specifier referrer : String} {r url : Url}

theorem MapsAsItIs.resolve (hhost : MapsAsItIs host specifier referrer r url)
    (hreferrer : referrer ≠ ".") (hjsr : url.scheme ≠ "jsr") (kind : ResolutionKind) :
    resolve host modules specifier referrer kind = .ok url := by
  have href : resolveReferrer host referrer kind = .ok r := by
    rw [resolveReferrer, if_neg hreferrer, hhost.parse_referrer]
  have hmapped : resolveMapped host modules r url = .ok url := by
    rw [resolveMapped, hhost.not_npm]
    simp only [if_neg hjsr, hhost.passes_node_modules]
    rfl
  rw [Loader.resolve, href]
  simp only [bind, Except.bind, hhost.not_in_npm_package, hhost.normal, hmapped]

/-- The future of an opaque module with UTF-8 bytes reaches `unreachable!()`. -/
theorem loadEszipModule_opaqueData (host : Host) (includeSourceMap : Bool) (original : Url)
    {found : Url} {specifier : String} {bytes : List UInt8} {text : String} {sourceMap : SourceSlot}
    (hutf8 : decodeUtf8 bytes = some text) :
    loadEszipModule host includeSourceMap original ⟨found, ⟨specifier, .opaqueData, .ready bytes, sourceMap⟩⟩ =
      .error (.panic "internal error: entered unreachable code") := by
  simp only [loadEszipModule, slotBytes, hutf8]
  rfl

end MapsAsItIs

theorem load_opaqueData_panics (host : Host) (modules : EszipV2Modules) (includeSourceMap : Bool)
    (specifier referrer : String) (kind : ResolutionKind) (r url : Url)
    (hreferrer : referrer ≠ ".") (hhost : MapsAsItIs host specifier referrer r url)
    (hscheme : url.scheme ≠ "data" ∧ url.scheme ≠ "file" ∧ url.scheme ≠ "jsr")
    {bytes : List UInt8} {text : String} {sourceMap : SourceSlot}
    (hentry : modules.lookup url.asStr = some (.module .opaqueData (.ready bytes) sourceMap))
    (hutf8 : decodeUtf8 bytes = some text) :
    resolve host modules specifier referrer kind = .ok url ∧
      load host modules includeSourceMap url =
        .error (.panic "internal error: entered unreachable code") := by
  obtain ⟨hdata, hfile, hjsr⟩ := hscheme
  refine ⟨hhost.resolve hreferrer hjsr kind, ?_⟩
  have hm := LazyLoadableEszip.ensureModule_of_lookup (EszipV2.lookup_of_module hentry)
    (show ModuleKind.opaqueData ≠ .jsonc by decide)
  have hget := WorkspaceEszip.getModule_of_ensureModule host hfile hm hhost.parse_url
  rw [load, if_neg hdata, if_neg (by rw [hhost.not_in_npm_package_url]; decide), hget]
  exact loadEszipModule_opaqueData host includeSourceMap url hutf8

/-- A host whose resolvers map as it is every URL `parseUrl` reads, with the
main module at `file:///main.ts`. -/
def passThroughHost : Host where
  parseSpecifier s :=
    if s = "file:///main.ts" then .ok ⟨"file", "///main.ts"⟩
    else match parseUrl s with
      | some url => .ok url
      | none => .error "relative URL without a base"
  currentDir := some "/"
  resolvePath _ _ := .ok ⟨"file", "///"⟩
  resolveIfInNpmPackage _ _ := none
  workspaceResolve s _ :=
    match parseUrl s with
    | some url => .ok (.normal url)
    | none => .error ⟨"Relative import path not prefixed", true⟩
  resolveReqWithSubPath _ _ _ := .error "no npm packages"
  resolveWorkspacePackage _ _ _ _ := .error "no workspace packages"
  npmReqReference url := if url.scheme = "npm" then some url.path else none
  resolveReqReference _ _ := .error "no npm packages"
  handleIfInNodeModules url := .ok url
  nodeResolve _ _ := .ok none
  inNpmPackage _ := false
  loadNpm _ := .error "no npm packages"
  decodeDataUrl _ := .error "no data URLs"
  specifierKey url := url.asStr
  joinRootDir _ := .error "no file modules"
  base64 _ := ""

/-- An eszip with the static file `hello.txt` stored as opaque data. -/
def staticFileEszip : EszipV2Modules :=
  ⟨[⟨"static:hello.txt", .module .opaqueData (.ready (utf8Bytes "hello")) (.ready [])⟩],
    List.nodupKeys_singleton _⟩

/-- `import "static:hello.txt"` from the main module resolves, and its load
panics. -/
theorem load_opaqueData_panics_static :
    resolve passThroughHost staticFileEszip "static:hello.txt" "file:///main.ts" .import =
        .ok ⟨"static", "hello.txt"⟩ ∧
      load passThroughHost staticFileEszip false ⟨"static", "hello.txt"⟩ =
        .error (.panic "internal error: entered unreachable code") :=
  load_opaqueData_panics passThroughHost staticFileEszip false "static:hello.txt" "file:///main.ts"
    .import ⟨"file", "///main.ts"⟩ ⟨"static", "hello.txt"⟩ (by decide)
    ⟨rfl, rfl, rfl, rfl, rfl, rfl, rfl⟩ (by decide) rfl (decodeUtf8_utf8Bytes "hello")

end EdgeRuntime.Loader
