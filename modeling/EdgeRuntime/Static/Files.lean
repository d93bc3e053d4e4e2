import Mathlib
import EdgeRuntime.Verified.Paths
import EdgeRuntime.Vfs.File

/-!
# Static files in a bundle

`include_glob_patterns_in_eszip` (crates/sb_graph/lib.rs) stores each file a
static glob pattern matches in the eszip under the specifier `static:`
followed by the file's path relative to the base directory, and records the
specifiers.  `extract_static_files_from_eszip` (crates/sb_fs/lib.rs) reads
each specifier back with `Url::parse`, joins the URL's path to the directory
the bundle is mapped at, normalizes it, and maps it to the specifier;
`StaticFs::read_file_sync` (crates/sb_fs/static_fs.rs) looks a normalized
path up in that map and reads the module the specifier names.

The specifier is written as text and read back as a URL with an opaque path:
a `#` or a `?` in a file's path ends the URL's path, so the file is mapped to
a path it does not have, and two files that differ after it are mapped to
the same one.

The base directory is absolute, as `DenoRuntime::new` makes it, so that the
relative path of a matched file never starts with `/`.  The eszip's modules
are `EszipSources`; the archived list of specifiers is kept as a list.

## Main results

* `readFileSync_includeGlobPatterns`: when every file's relative path has
  only plain characters, each file is read back at its own path with its
  bytes.
* `extractStaticFiles_cut`: two files whose relative paths differ only after
  a `#` or a `?` are both mapped to the part before it, and only the second
  is kept.
-/

namespace EdgeRuntime.Static

open EdgeRuntime.Verified.Paths EdgeRuntime.Vfs

/-- The specifier `include_glob_patterns_in_eszip` gives a matched path. -/
def staticSpecifier (cwd baseDir path : String) : String :=
  let path := joinPath cwd path
  "static:" ++ (diffPaths path baseDir).getD path

/-- `include_glob_patterns_in_eszip` over the paths the patterns match, with
the bytes of each existing file: the eszip's modules afterwards and the
specifiers recorded. -/
def includeGlobPatterns (fs : String → Option (List UInt8)) (cwd baseDir : String)
    (eszip : EszipSources) : List String → EszipSources × List String
  | [] => (eszip, [])
  | path :: rest =>
      match fs (joinPath cwd path) with
      | some bytes =>
          let specifier := staticSpecifier cwd baseDir path
          let (eszip, specifiers) := includeGlobPatterns fs cwd baseDir
            (fun key => if key = specifier then some bytes else eszip key) rest
          (eszip, specifier :: specifiers)
      | none => includeGlobPatterns fs cwd baseDir eszip rest

/-- `EszipStaticFiles`, a map from normalized paths to specifiers. -/
abbrev StaticFiles := List (List Component × String)

/-- `HashMap::insert`: the path's entry is replaced. -/
def StaticFiles.insert (files : StaticFiles) (path : List Component) (specifier : String) :
    StaticFiles :=
  (path, specifier) :: files.filter (fun entry => entry.1 ≠ path)

/-- The path a specifier is mapped to, unless `Url::parse` rejects it. -/
def specifierPath (baseDir specifier : String) : Option (List Component) :=
  (parseUrl specifier).map fun url => normalizePath (components (joinPath baseDir url.path))

/-- `extract_static_files_from_eszip`, given the recorded specifiers. -/
def extractStaticFiles (baseDir : String) (specifiers : List String) : StaticFiles :=
  specifiers.foldl (fun files specifier =>
    match specifierPath baseDir specifier with
    | some path => files.insert path specifier
    | none => files) []

/-- The specifiers `include_glob_patterns_in_eszip` records and the bytes it
stores under each, in the order of the matched paths. -/
def storedFiles (fs : String → Option (List UInt8)) (cwd baseDir : String) (paths : List String) :
    List (String × List UInt8) :=
  paths.filterMap fun path => (fs (joinPath cwd path)).map fun bytes =>
    (staticSpecifier cwd baseDir path, bytes)

/-- The static-file branch of `StaticFs::read_file_sync`. -/
def readFileSync (files : StaticFiles) (eszip : EszipSources) (baseDir path : String) :
    Except IoError (List UInt8) :=
  let normalized :=
    normalizePath (components (if path.toList.head? = some '/' then path else joinPath baseDir path))
  match (files.lookup normalized).bind eszip with
  | some bytes => .ok bytes
  | none => .error ⟨.notFound, "path not found: " ++ asString normalized⟩

/-! ## Reading a specifier back -/

/-- A relative path of plain characters, which the URL parser reads back as it
is. -/
def PlainPath (r : String) : Prop := (∀ c ∈ r.toList, plainChar c) ∧ r.toList.head? ≠ some '/'

instance : DecidablePred PlainPath := fun r =>
  @instDecidableAnd _ _ (List.decidableBAll plainChar r.toList) inferInstance

/-- The characters of `static:`. -/
theorem static_toList : "static:".toList = ['s', 't', 'a', 't', 'i', 'c', ':'] := rfl

theorem visible_of_plain {c : Char} (hc : plainChar c) : visible c := hc.1

theorem visible_static : ∀ c ∈ "static:".toList, visible c := by
  rw [static_toList]
  exact @of_decide_eq_true _ (List.decidableBAll visible _) rfl

/-- The scheme `static`, and what follows the `:`. -/
theorem span_static (rest : List Char) :
    ("static:".toList ++ rest).span schemeChar = ("static".toList, ':' :: rest) := rfl

/-- Reading `static:` followed by the characters `rest`. -/
theorem parseUrl_static {specifier : String} {rest : List Char}
    (hpre : preprocess specifier = "static:".toList ++ rest) (hslash : rest.head? ≠ some '/') :
    parseUrl specifier = some ⟨"static", String.ofList (opaquePath rest)⟩ := by
  simp only [parseUrl, hpre]
  rw [span_static]
  simp only
  have hscheme : String.ofList ("static".toList.map Char.toLower) = "static" := rfl
  rw [hscheme, if_pos ⟨rfl, by decide, hslash⟩]

/-- A plain path is read back as itself. -/
theorem parseUrl_plain {r : String} (hr : PlainPath r) :
    parseUrl ("static:" ++ r) = some ⟨"static", r⟩ := by
  have hvis : ∀ c ∈ ("static:" ++ r).toList, visible c := by
    intro c hc
    rw [String.toList_append, List.mem_append] at hc
    rcases hc with hc | hc
    · exact visible_static c hc
    · exact visible_of_plain (hr.1 c hc)
  rw [parseUrl_static (preprocess_of_visible hvis ▸ String.toList_append) hr.2,
    opaquePath_plain hr.1, String.ofList_toList]

/-- A plain path followed by a `#` or a `?` is read back as the plain part,
whatever follows. -/
theorem parseUrl_cut {p q : String} (hp : PlainPath p) {c : Char} (hc : c = '?' ∨ c = '#') :
    parseUrl ("static:" ++ p ++ String.singleton c ++ q) = some ⟨"static", p⟩ := by
  have hvc : visible c := by
    rcases hc with rfl | rfl <;> decide
  have hinput : ("static:" ++ p ++ String.singleton c ++ q).toList =
      ("static:".toList ++ p.toList) ++ c :: q.toList := by
    simp [String.toList_append]
  have hpre : ∀ x ∈ "static:".toList ++ p.toList, visible x := by
    intro x hx
    rcases List.mem_append.1 hx with hx | hx
    · exact visible_static x hx
    · exact visible_of_plain (hp.1 x hx)
  obtain ⟨rest', hrest⟩ := preprocess_cut hinput hpre hvc
  have hslash : (p.toList ++ c :: rest').head? ≠ some '/' := by
    cases hpl : p.toList with
    | nil => rcases hc with rfl | rfl <;> simp
    | cons x xs =>
        have hrel := hp.2
        rw [hpl] at hrel
        simpa using hrel
  rw [parseUrl_static (by rw [hrest, List.append_assoc]) hslash,
    opaquePath_plain_append hp.1 hc, String.ofList_toList]

/-- The path a plain specifier is mapped to is its own, joined and
normalized. -/
theorem specifierPath_plain (baseDir : String) {r : String} (hr : PlainPath r) :
    specifierPath baseDir ("static:" ++ r) = some (normalizePath (components (joinPath baseDir r))) := by
  simp only [specifierPath, parseUrl_plain hr, Option.map_some]

/-! ## The map of static files -/

theorem lookup_filter_ne {files : StaticFiles} {path k : List Component} (hk : k ≠ path) :
    (files.filter fun entry => entry.1 ≠ path).lookup k = files.lookup k := by
  induction files with
  | nil => rfl
  | cons entry files ih =>
      obtain ⟨key, specifier⟩ := entry
      by_cases he : key = path
      · have hke : (k == key) = false := by simpa [he] using hk
        rw [List.filter_cons_of_neg (by simpa using he), ih]
        simp only [List.lookup, hke]
      · rw [List.filter_cons_of_pos (by simpa using he)]
        simp only [List.lookup, ih]

theorem lookup_insert (files : StaticFiles) (path k : List Component) (specifier : String) :
    (files.insert path specifier).lookup k = if k = path then some specifier else files.lookup k := by
  unfold StaticFiles.insert
  by_cases hk : k = path
  · simp [List.lookup, hk]
  · have hne : (k == path) = false := by simpa using hk
    simp only [List.lookup, hne, if_neg hk]
    exact lookup_filter_ne hk

/-- The map `extract_static_files_from_eszip` builds holds, for each path,
the last specifier read back as that path. -/
theorem lookup_extractStaticFiles (baseDir : String) (specifiers : List String)
    (k : List Component) :
    (extractStaticFiles baseDir specifiers).lookup k =
      specifiers.reverse.find? (fun specifier => decide (specifierPath baseDir specifier = some k)) := by
  unfold extractStaticFiles
  induction specifiers using List.reverseRecOn with
  | nil => rfl
  | append_singleton specifiers specifier ih =>
      rw [List.foldl_append, List.foldl_cons, List.foldl_nil, List.reverse_append,
        List.reverse_singleton, List.singleton_append, List.find?_cons]
      cases hs : specifierPath baseDir specifier with
      | none => simpa using ih
      | some path =>
          by_cases hk : k = path
          · simp [lookup_insert, hk]
          · have hne : path ≠ k := Ne.symm hk
            simp [lookup_insert, hk, hne, ih]

/-- Two specifiers read back as the same path: the later one replaces the
earlier. -/
theorem extractStaticFiles_pair {baseDir s₁ s₂ : String} {path : List Component}
    (h₁ : specifierPath baseDir s₁ = some path) (h₂ : specifierPath baseDir s₂ = some path) :
    extractStaticFiles baseDir [s₁, s₂] = [(path, s₂)] := by
  simp [extractStaticFiles, h₁, h₂, StaticFiles.insert]

theorem extractStaticFiles_cut (baseDir p q₁ q₂ : String) (hp : PlainPath p) {c₁ c₂ : Char}
    (hc₁ : c₁ = '?' ∨ c₁ = '#') (hc₂ : c₂ = '?' ∨ c₂ = '#') :
    extractStaticFiles baseDir
        ["static:" ++ p ++ String.singleton c₁ ++ q₁, "static:" ++ p ++ String.singleton c₂ ++ q₂] =
      [(normalizePath (components (joinPath baseDir p)),
        "static:" ++ p ++ String.singleton c₂ ++ q₂)] := by
  have hpath : ∀ {c : Char} (q : String), (c = '?' ∨ c = '#') →
      specifierPath baseDir ("static:" ++ p ++ String.singleton c ++ q) =
        some (normalizePath (components (joinPath baseDir p))) := by
    intro c q hc
    simp only [specifierPath, parseUrl_cut hp hc, Option.map_some]
  exact extractStaticFiles_pair (hpath q₁ hc₁) (hpath q₂ hc₂)

/-- Two files `a#1.txt` and `a#2.txt` under `/srv/app`, bundled from there:
both are mapped to `/srv/app/a`, only the second is kept, and neither can be
read at its own path. -/
theorem extractStaticFiles_cut_hash :
    (includeGlobPatterns
        (fun path => if path = "/srv/app/a#1.txt" then some [1]
          else if path = "/srv/app/a#2.txt" then some [2] else none)
        "/srv/app" "/srv/app" (fun _ => none) ["a#1.txt", "a#2.txt"]).2 =
      ["static:a#1.txt", "static:a#2.txt"] ∧
    extractStaticFiles "/srv/app" ["static:a#1.txt", "static:a#2.txt"] =
      [(normalizePath (components "/srv/app/a"), "static:a#2.txt")] ∧
    readFileSync (extractStaticFiles "/srv/app" ["static:a#1.txt", "static:a#2.txt"])
        (fun key => if key = "static:a#2.txt" then some [2] else none) "/srv/app"
        "/srv/app/a#1.txt" =
      .error ⟨.notFound, "path not found: /srv/app/a#1.txt"⟩ ∧
    readFileSync (extractStaticFiles "/srv/app" ["static:a#1.txt", "static:a#2.txt"])
        (fun key => if key = "static:a#2.txt" then some [2] else none) "/srv/app"
        "/srv/app/a#2.txt" =
      .error ⟨.notFound, "path not found: /srv/app/a#2.txt"⟩ := by
  have hcut := extractStaticFiles_cut "/srv/app" "a" "1.txt" "2.txt" (by decide +kernel)
    (Or.inr rfl) (Or.inr rfl)
  have hfiles : extractStaticFiles "/srv/app" ["static:a#1.txt", "static:a#2.txt"] =
      [(normalizePath (components "/srv/app/a"), "static:a#2.txt")] := hcut
  rw [hfiles]
  exact ⟨by decide +kernel, rfl, by decide +kernel, by decide +kernel⟩

/-! ## Bundling and reading back -/

section Bundle

variable (fs : String → Option (List UInt8)) (cwd baseDir : String)

theorem storedFiles_cons_none {path : String} (paths : List String)
    (hf : fs (joinPath cwd path) = none) :
    storedFiles fs cwd baseDir (path :: paths) = storedFiles fs cwd baseDir paths := by
  simp [storedFiles, hf]

theorem storedFiles_cons_some {path : String} (paths : List String) {bytes : List UInt8}
    (hf : fs (joinPath cwd path) = some bytes) :
    storedFiles fs cwd baseDir (path :: paths) =
      (staticSpecifier cwd baseDir path, bytes) :: storedFiles fs cwd baseDir paths := by
  simp [storedFiles, hf]

/-- The specifiers `include_glob_patterns_in_eszip` records, one for each
matched path that exists. -/
theorem includeGlobPatterns_specifiers (eszip : EszipSources) (paths : List String) :
    (includeGlobPatterns fs cwd baseDir eszip paths).2 =
      (storedFiles fs cwd baseDir paths).map Prod.fst := by
  induction paths generalizing eszip with
  | nil => rfl
  | cons path paths ih =>
      cases hf : fs (joinPath cwd path) with
      | none => simp only [includeGlobPatterns, hf, storedFiles_cons_none fs cwd baseDir paths hf, ih]
      | some bytes =>
          simp only [includeGlobPatterns, hf, storedFiles_cons_some fs cwd baseDir paths hf, ih,
            List.map_cons]

/-- The eszip after `include_glob_patterns_in_eszip` holds under a
specifier the bytes of the last file stored under it. -/
theorem includeGlobPatterns_eszip (eszip : EszipSources) (paths : List String) (key : String) :
    (includeGlobPatterns fs cwd baseDir eszip paths).1 key =
      (((storedFiles fs cwd baseDir paths).reverse.find? fun e => decide (e.1 = key)).map
        Prod.snd).or (eszip key) := by
  induction paths generalizing eszip with
  | nil => rfl
  | cons path paths ih =>
      cases hf : fs (joinPath cwd path) with
      | none => simp only [includeGlobPatterns, hf, storedFiles_cons_none fs cwd baseDir paths hf, ih]
      | some bytes =>
          simp only [includeGlobPatterns, hf, storedFiles_cons_some fs cwd baseDir paths hf, ih,
            List.reverse_cons, List.find?_append]
          cases ((storedFiles fs cwd baseDir paths).reverse.find? fun e => decide (e.1 = key)) with
          | none =>
              by_cases hk : key = staticSpecifier cwd baseDir path
              · simp [hk]
              · simp [hk, Ne.symm hk]
          | some e => rfl

/-- A stored specifier is found in the eszip afterwards, with the bytes of a
file stored under it. -/
theorem includeGlobPatterns_eszip_mem (eszip : EszipSources) {paths : List String}
    {specifier : String} {bytes : List UInt8}
    (hmem : (specifier, bytes) ∈ storedFiles fs cwd baseDir paths) :
    ∃ bytes', (includeGlobPatterns fs cwd baseDir eszip paths).1 specifier = some bytes' ∧
      (specifier, bytes') ∈ storedFiles fs cwd baseDir paths := by
  obtain ⟨e, he⟩ := Option.isSome_iff_exists.1 (List.find?_isSome.2
    ⟨(specifier, bytes), List.mem_reverse.2 hmem, by simp⟩ :
      ((storedFiles fs cwd baseDir paths).reverse.find? fun e => decide (e.1 = specifier)).isSome)
  have hkey : e.1 = specifier := by simpa using List.find?_some he
  refine ⟨e.2, ?_, ?_⟩
  · rw [includeGlobPatterns_eszip, he]
    rfl
  · rw [← hkey]
    exact List.mem_reverse.1 (List.mem_of_find?_eq_some he)

end Bundle

/-- When every specifier is plain, the path of a specifier is mapped to a
specifier whose path normalizes to the same. -/
theorem lookup_extractStaticFiles_plain (baseDir : String) {specifiers : List String}
    (hplain : ∀ s ∈ specifiers, ∃ r, s = "static:" ++ r ∧ PlainPath r) {r : String}
    (hr : PlainPath r) (hmem : "static:" ++ r ∈ specifiers) :
    ∃ r', (extractStaticFiles baseDir specifiers).lookup
        (normalizePath (components (joinPath baseDir r))) = some ("static:" ++ r') ∧
      "static:" ++ r' ∈ specifiers ∧
      normalizePath (components (joinPath baseDir r')) =
        normalizePath (components (joinPath baseDir r)) := by
  rw [lookup_extractStaticFiles]
  obtain ⟨s, hs⟩ := Option.isSome_iff_exists.1 (List.find?_isSome.2
    ⟨"static:" ++ r, List.mem_reverse.2 hmem, by simp [specifierPath_plain baseDir hr]⟩ :
      (specifiers.reverse.find? fun specifier => decide (specifierPath baseDir specifier =
        some (normalizePath (components (joinPath baseDir r))))).isSome)
  have hsmem : s ∈ specifiers := List.mem_reverse.1 (List.mem_of_find?_eq_some hs)
  obtain ⟨r', rfl, hr'⟩ := hplain s hsmem
  have hpath := List.find?_some hs
  rw [specifierPath_plain baseDir hr', decide_eq_true_eq, Option.some.injEq] at hpath
  exact ⟨r', hs, hsmem, hpath⟩

/-- Bundling static files and reading them back: when every stored relative
path is plain and files at the same normalized path have the same bytes,
each file is read at its own path with its own bytes. -/
theorem readFileSync_includeGlobPatterns (fs : String → Option (List UInt8)) (cwd baseDir : String)
    (eszip : EszipSources) (paths : List String)
    (hplain : ∀ e ∈ storedFiles fs cwd baseDir paths, ∃ r, e.1 = "static:" ++ r ∧ PlainPath r)
    (hsame : ∀ r₁ r₂ b₁ b₂, ("static:" ++ r₁, b₁) ∈ storedFiles fs cwd baseDir paths →
      ("static:" ++ r₂, b₂) ∈ storedFiles fs cwd baseDir paths →
      normalizePath (components (joinPath baseDir r₁)) =
        normalizePath (components (joinPath baseDir r₂)) → b₁ = b₂)
    {r : String} {bytes : List UInt8} (hr : ("static:" ++ r, bytes) ∈ storedFiles fs cwd baseDir paths) :
    readFileSync (extractStaticFiles baseDir (includeGlobPatterns fs cwd baseDir eszip paths).2)
      (includeGlobPatterns fs cwd baseDir eszip paths).1 baseDir r = .ok bytes := by
  have hrp : PlainPath r := by
    obtain ⟨r', hr', hp⟩ := hplain _ hr
    rwa [(String.append_right_inj _).1 hr']
  have hspecs : ∀ s ∈ (storedFiles fs cwd baseDir paths).map Prod.fst,
      ∃ r, s = "static:" ++ r ∧ PlainPath r := by
    intro s hs
    obtain ⟨e, he, rfl⟩ := List.mem_map.1 hs
    exact hplain e he
  obtain ⟨r', hlookup, hmem', hkey⟩ := lookup_extractStaticFiles_plain baseDir hspecs hrp
    (List.mem_map.2 ⟨_, hr, rfl⟩)
  obtain ⟨⟨s, b⟩, he, hs⟩ := List.mem_map.1 hmem'
  dsimp only at hs
  subst hs
  obtain ⟨bytes', hesz, hmem''⟩ := includeGlobPatterns_eszip_mem fs cwd baseDir eszip he
  have hbytes : bytes' = bytes := hsame r' r bytes' bytes hmem'' hr hkey
  rw [includeGlobPatterns_specifiers]
  simp only [readFileSync, if_neg hrp.2, hlookup, Option.bind_some, hesz, hbytes]
/-- Two files `a.txt` and `b/c.txt` under `/srv/app`, bundled from there:
`b/c.txt` is read back with its bytes. -/
theorem readFileSync_includeGlobPatterns_two :
    readFileSync
        (extractStaticFiles "/srv/app"
          (includeGlobPatterns
            (fun path => if path = "/srv/app/a.txt" then some [1]
              else if path = "/srv/app/b/c.txt" then some [2] else none)
            "/srv/app" "/srv/app" (fun _ => none) ["a.txt", "b/c.txt"]).2)
        (includeGlobPatterns
            (fun path => if path = "/srv/app/a.txt" then some [1]
              else if path = "/srv/app/b/c.txt" then some [2] else none)
            "/srv/app" "/srv/app" (fun _ => none) ["a.txt", "b/c.txt"]).1
        "/srv/app" "b/c.txt" =
      .ok [2] := by
  have hstored : storedFiles
      (fun path => if path = "/srv/app/a.txt" then some [1]
        else if path = "/srv/app/b/c.txt" then some [2] else none)
      "/srv/app" "/srv/app" ["a.txt", "b/c.txt"] =
        [("static:" ++ "a.txt", [1]), ("static:" ++ "b/c.txt", [2])] := by
    decide +kernel
  apply readFileSync_includeGlobPatterns
  · rw [hstored]
    intro e he
    simp only [List.mem_cons, List.not_mem_nil, or_false] at he
    rcases he with rfl | rfl
    · exact ⟨"a.txt", rfl, by decide +kernel⟩
    · exact ⟨"b/c.txt", rfl, by decide +kernel⟩
  · rw [hstored]
    intro r₁ r₂ b₁ b₂ h₁ h₂ hkey
    simp only [List.mem_cons, Prod.mk.injEq, String.append_right_inj, List.not_mem_nil,
      or_false] at h₁ h₂
    rcases h₁ with ⟨rfl, rfl⟩ | ⟨rfl, rfl⟩ <;> rcases h₂ with ⟨rfl, rfl⟩ | ⟨rfl, rfl⟩
    · rfl
    · exact absurd hkey (by decide +kernel)
    · exact absurd hkey (by decide +kernel)
    · rfl
  · rw [hstored]
    exact List.mem_cons_of_mem _ List.mem_cons_self

end EdgeRuntime.Static
