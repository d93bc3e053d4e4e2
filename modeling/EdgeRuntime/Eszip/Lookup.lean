import EdgeRuntime.Eszip.Header

/-!
# Looking a module up in an eszip

What the runtime asks of the module table `parse_v2_header` builds.  The
lookups are the eszip crate's (`EszipV2::get_module`, `get_import_map`,
`Module::take_source`): a lookup follows redirects and stops at a missing key
or at a redirect back to a specifier already visited, and the two getters
filter on the module's kind.  `LazyLoadableEszip::ensure_data` and
`ensure_module` (crates/sb_graph/lib.rs) are the repository's: the first
asks for a module and then for an import map, and spawns the lazy load of its
data section, which is not modelled here; the second refuses a JSONC module.
No filter refuses opaque data: `ensure_version` and the static file system
read their opaque entries through `ensure_module`.
-/

namespace EdgeRuntime.Eszip

/-- `eszip::Module`: the specifier a lookup ended at, the module's kind, and
the slots its `source` and `source_map` read. -/
structure EszipModule where
  specifier : String
  kind : ModuleKind
  source : SourceSlot
  sourceMap : SourceSlot
  deriving DecidableEq, Repr

/-- `source().await` on a slot the data section has loaded: its bytes, and
`None` for a slot a failed load, or a `take_source`, took. -/
def slotBytes : SourceSlot → Option (List UInt8)
  | .ready bytes => some bytes
  | _ => none

namespace EszipV2

/-- `EszipV2::lookup`, with the specifiers visited so far.  The fuel is one
more than the number of entries, which no chain of distinct specifiers
exceeds. -/
def lookupFrom (modules : EszipV2Modules) : Nat → List String → String → Option EszipModule
  | 0, _, _ => none
  | fuel + 1, visited, specifier =>
      match modules.lookup specifier with
      | none => none
      | some (.module kind source sourceMap) => some ⟨specifier, kind, source, sourceMap⟩
      | some (.redirect target) =>
          if target ∈ specifier :: visited then none
          else lookupFrom modules fuel (specifier :: visited) target

/-- `EszipV2::lookup`. -/
def lookup (modules : EszipV2Modules) (specifier : String) : Option EszipModule :=
  lookupFrom modules (modules.entries.length + 1) [] specifier

/-- `EszipV2::get_module`: a JSONC module is left to `get_import_map`. -/
def getModule (modules : EszipV2Modules) (specifier : String) : Option EszipModule :=
  (lookup modules specifier).filter fun m => decide (m.kind ≠ .jsonc)

/-- `EszipV2::get_import_map`: a JavaScript module is no import map. -/
def getImportMap (modules : EszipV2Modules) (specifier : String) : Option EszipModule :=
  (lookup modules specifier).filter fun m => decide (m.kind ≠ .javaScript)

/-- `Module::take_source` of a module a lookup found: the bytes of its source
slot, which is left `Taken`. -/
def takeSource (modules : EszipV2Modules) (m : EszipModule) :
    Option (List UInt8) × EszipV2Modules :=
  match modules.lookup m.specifier with
  | some (.module kind source sourceMap) =>
      (slotBytes source, modules.replace m.specifier (.module kind .taken sourceMap))
  | _ => (none, modules)

/-- An entry that is a module is what the lookup finds, without a
redirect. -/
theorem lookup_of_module {modules : EszipV2Modules} {specifier : String} {kind : ModuleKind}
    {source sourceMap : SourceSlot}
    (h : modules.lookup specifier = some (.module kind source sourceMap)) :
    lookup modules specifier = some ⟨specifier, kind, source, sourceMap⟩ := by
  rw [lookup, lookupFrom, h]

end EszipV2

namespace LazyLoadableEszip

/-- `LazyLoadableEszip::ensure_data`, without the lazy load it spawns. -/
def ensureData (modules : EszipV2Modules) (specifier : String) : Option EszipModule :=
  (EszipV2.getModule modules specifier).or (EszipV2.getImportMap modules specifier)

/-- `LazyLoadableEszip::ensure_module`. -/
def ensureModule (modules : EszipV2Modules) (specifier : String) : Option EszipModule :=
  (ensureData modules specifier).filter fun m => decide (m.kind ≠ .jsonc)

/-- `ensure_module` hands out every module a lookup finds but a JSONC one. -/
theorem ensureModule_of_lookup {modules : EszipV2Modules} {specifier : String} {m : EszipModule}
    (h : EszipV2.lookup modules specifier = some m) (hkind : m.kind ≠ .jsonc) :
    ensureModule modules specifier = some m := by
  have hget : EszipV2.getModule modules specifier = some m := by
    rw [EszipV2.getModule, h, Option.filter_some, decide_eq_true hkind, if_pos rfl]
  rw [ensureModule, ensureData, hget, Option.some_or, Option.filter_some, decide_eq_true hkind,
    if_pos rfl]

end LazyLoadableEszip

end EdgeRuntime.Eszip
