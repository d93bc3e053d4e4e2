import Mathlib.Data.List.Basic

/-!
# Unix paths, and URLs with an opaque path

The parts of Rust's path handling a program uses when it turns files into
keys and back, on a Unix system:

* `Path::components`: the root, then the names between separators, with
  empty names and `.` dropped (a leading `.` of a relative path excepted);
* `Path::join`, which is `PathBuf::push`: an absolute path replaces the base;
* `Path::parent` and `Path::strip_prefix("/")`, which return a slice of the
  path's text: separators and `.` names next to the cut are trimmed;
* `str::replace`, on the characters of a string;
* the lexical `normalize_path` of `deno_core` (taken from Cargo): `.` goes,
  `..` pops the last name, and the root is never popped;
* `pathdiff::diff_paths` (version 0.2) of two absolute paths.

A path is a `String`; a `PathBuf` the program compares, normalized, is its
list of components.

The module also models what the `url` crate (version 2.4) does with an input
whose scheme is not special and whose remainder does not start with `/`: it
trims C0 controls and spaces from both ends, drops tabs and newlines, and
reads the remainder as an opaque path up to the first `?` or `#`,
percent-encoding C0 controls, `DEL` and every non-ASCII character.  Inputs of
any other shape are outside the model, which says so with `none`.

## Main results

* `preprocess_of_visible`, `preprocess_cut`: an input with no C0 control or
  space is read as it is; one whose first part has none is read with that
  part intact up to any visible character.
* `opaquePath_plain`: a path of plain characters is read back as itself.
* `opaquePath_plain_append`: a `?` or `#` after plain characters cuts the
  path there, whatever follows.
-/

namespace EdgeRuntime.Verified.Paths

/-- `std::path::Component` on Unix. -/
inductive Component
  | rootDir
  | curDir
  | parentDir
  | normal (name : String)
  deriving DecidableEq, Repr

/-- A name between separators as a component; an empty name and `.` are
dropped. -/
def segment (name : String) : Option Component :=
  if name = "" ∨ name = "." then none
  else if name = ".." then some .parentDir
  else some (.normal name)

/-- `Path::components`. -/
def components (path : String) : List Component :=
  match (path.toList.splitOn '/').map String.ofList with
  | [] => []
  | first :: rest =>
      (if path.toList.head? = some '/' then [.rootDir]
        else if first = "." then [.curDir] else (segment first).toList) ++
      rest.filterMap segment

/-- `Component::as_os_str`. -/
def Component.asStr : Component → String
  | .rootDir => "/"
  | .curDir => "."
  | .parentDir => ".."
  | .normal name => name

/-- A `PathBuf` collected from components, as a string. -/
def asString : List Component → String
  | .rootDir :: rest => "/" ++ "/".intercalate (rest.map Component.asStr)
  | cs => "/".intercalate (cs.map Component.asStr)

/-- `Path::join`: an absolute path replaces the base, and a separator goes
between them unless the base is empty or ends in one. -/
def joinPath (base path : String) : String :=
  if path.toList.head? = some '/' then path
  else if base.toList.getLast? = some '/' ∨ base = "" then base ++ path
  else base ++ "/" ++ path

/-- A name between separators that is no component: an empty one, or `.`. -/
def skippedName (name : List Char) : Bool := name.isEmpty || decide (name = ['.'])

/-- `Path::parent`: the text before the last component, with the separators
and `.` names before that component trimmed, and the root or a leading `.`
kept.  `none` when there is no component past the root. -/
def parentPath (path : String) : Option String :=
  let names := path.toList.splitOn '/'
  let absolute := decide (path.toList.head? = some '/')
  let curDir := !absolute && decide (names.head? = some ['.'])
  let body := if absolute || curDir then names.tail else names
  match body.reverse.dropWhile skippedName with
  | [] => if curDir then some "" else none
  | _ :: before =>
      let kept := (before.dropWhile skippedName).reverse
      let text := "/".intercalate (kept.map String.ofList)
      some (if absolute then "/" ++ text
        else if curDir then (if kept = [] then "." else "./" ++ text)
        else text)

/-- `Path::strip_prefix("/")`: the text after the root, with the separators
and `.` names at both ends trimmed; `none` for a relative path. -/
def stripRoot (path : String) : Option String :=
  if path.toList.head? = some '/' then
    let body := (((path.toList.splitOn '/').tail.dropWhile skippedName).reverse.dropWhile
      skippedName).reverse
    some ("/".intercalate (body.map String.ofList))
  else none

/-- `str::replace(from, to)` on the characters: the occurrences of `from`,
left to right and not overlapping, each replaced by `to`; an empty `from`
puts `to` before every character and at the end. -/
def strReplace (pat rep : List Char) : List Char → List Char
  | [] => if pat = [] then rep else []
  | c :: rest =>
      if pat = [] then rep ++ c :: strReplace pat rep rest
      else if pat.isPrefixOf (c :: rest) then
        rep ++ strReplace pat rep ((c :: rest).drop pat.length)
      else c :: strReplace pat rep rest
termination_by s => s.length
decreasing_by
  · simp
  · have : 0 < pat.length := List.length_pos_iff.2 (by assumption)
    simp only [List.length_drop, List.length_cons]
    omega
  · simp

theorem strReplace_append_of_prefix {pat : List Char} (rep : List Char) (hpat : pat ≠ [])
    (s : List Char) : strReplace pat rep (pat ++ s) = rep ++ strReplace pat rep s := by
  obtain ⟨p, ps, rfl⟩ := List.exists_cons_of_ne_nil hpat
  have hprefix : (p :: ps).isPrefixOf (p :: (ps ++ s)) = true := by
    rw [← List.cons_append, List.isPrefixOf_iff_prefix]
    exact List.prefix_append _ _
  rw [List.cons_append, strReplace, if_neg hpat, if_pos hprefix, ← List.cons_append, List.drop_left]

/-- Text without the first character of the pattern is left as it is. -/
theorem strReplace_of_not_mem {p : Char} {ps : List Char} (rep : List Char) :
    ∀ {s : List Char}, p ∉ s → strReplace (p :: ps) rep s = s
  | [], _ => by rw [strReplace, if_neg (List.cons_ne_nil p ps)]
  | c :: rest, h => by
      have hc : p ≠ c := fun hpc => h (hpc ▸ List.mem_cons_self)
      have hprefix : ¬(p :: ps).isPrefixOf (c :: rest) = true := by
        simp [List.isPrefixOf, hc]
      rw [strReplace, if_neg (List.cons_ne_nil p ps), if_neg hprefix,
        strReplace_of_not_mem rep fun hmem => h (List.mem_cons_of_mem c hmem)]

/-- One step of `normalize_path`. -/
def normalizeStep (ret : List Component) : Component → List Component
  | .rootDir => [.rootDir]
  | .curDir => ret
  | .parentDir =>
      -- `PathBuf::pop` removes a last name, and never the root
      match ret.getLast? with
      | some (.normal _) => ret.dropLast
      | _ => ret
  | .normal name => ret ++ [.normal name]

/-- `normalize_path` of `deno_core`, on the components of a path. -/
def normalizePath (path : List Component) : List Component :=
  path.foldl normalizeStep []

/-- The loop of `pathdiff::diff_paths` over the components of the path and of
the base, with the components of the result so far. -/
def diffLoop : List Component → List Component → List Component → Option (List Component)
  | [], [], comps => some comps
  | a :: as, [], comps => some (comps ++ a :: as)
  | [], _ :: bs, comps => diffLoop [] bs (comps ++ [.parentDir])
  | a :: as, b :: bs, comps =>
      if comps = [] ∧ a = b then diffLoop as bs comps
      else if b = .curDir then diffLoop as bs (comps ++ [a])
      else if b = .parentDir then none
      else some (comps ++ .parentDir :: bs.map (fun _ => .parentDir) ++ a :: as)

/-- `pathdiff::diff_paths`. -/
def diffPaths (path base : String) : Option String :=
  let isAbs := fun (p : String) => p.toList.head? = some '/'
  if isAbs path ≠ isAbs base then
    if isAbs path then some path else none
  else (diffLoop (components path) (components base) []).map asString

/-! ## URLs with an opaque path -/

/-- A C0 control or a space, what the parser trims from both ends. -/
def c0ControlOrSpace (c : Char) : Bool := c.toNat ≤ 0x20

/-- A tab or a newline, what the parser skips everywhere. -/
def tabOrNewline (c : Char) : Bool := c = '\t' || c = '\n' || c = '\r'

/-- The characters the parser reads. -/
def preprocess (input : String) : List Char :=
  ((input.toList.dropWhile c0ControlOrSpace).reverse.dropWhile c0ControlOrSpace).reverse.filter
    (fun c => !tabOrNewline c)

/-- An upper-case hexadecimal digit. -/
def hexDigit (n : Nat) : Char := Char.ofNat (if n < 10 then 0x30 + n else 0x41 + n - 10)

/-- A byte percent-encoded. -/
def percentEncodeByte (b : UInt8) : List Char :=
  ['%', hexDigit (b.toNat / 16), hexDigit (b.toNat % 16)]

/-- `utf8_percent_encode` of one character with the set `CONTROLS`: C0
controls, `DEL` and non-ASCII characters are encoded, byte by byte. -/
def encodeControl (c : Char) : List Char :=
  if c.toNat < 0x20 ∨ 0x7F ≤ c.toNat then (String.utf8EncodeChar c).flatMap percentEncodeByte
  else [c]

/-- `parse_cannot_be_a_base_path`: the opaque path, up to a `?` or a `#`. -/
def opaquePath : List Char → List Char
  | [] => []
  | c :: rest => if c = '?' ∨ c = '#' then [] else encodeControl c ++ opaquePath rest

/-- A scheme character after the first. -/
def schemeChar (c : Char) : Bool := c.isAlphanum || c = '+' || c = '-' || c = '.'

/-- The schemes the URL Standard calls special. -/
def specialSchemes : List String := ["ftp", "file", "http", "https", "ws", "wss"]

/-- The parts of a parsed `Url` a caller here reads. -/
structure Url where
  scheme : String
  path : String
  deriving DecidableEq, Repr

/-- `Url::as_str` of a URL whose path is all that follows its scheme: the
scheme, a colon and the path. -/
def Url.asStr (u : Url) : String := u.scheme ++ ":" ++ u.path

/-- `Url::parse` of an input whose scheme is not special and whose remainder
does not start with `/`; `none` for any other input. -/
def parseUrl (input : String) : Option Url :=
  let cs := preprocess input
  match cs.span schemeChar with
  | (scheme, ':' :: rest) =>
      let scheme := String.ofList (scheme.map Char.toLower)
      if (scheme.toList.head?.map Char.isAlpha) = some true ∧ scheme ∉ specialSchemes ∧
          rest.head? ≠ some '/' then
        some ⟨scheme, String.ofList (opaquePath rest)⟩
      else none
  | _ => none

/-! ## What the parser reads -/

/-- A character above the space, which the parser neither trims nor skips. -/
def visible (c : Char) : Prop := 0x20 < c.toNat

instance : DecidablePred visible := fun c => inferInstanceAs (Decidable (0x20 < c.toNat))

theorem c0ControlOrSpace_eq_false {c : Char} (hc : visible c) : c0ControlOrSpace c = false := by
  unfold visible at hc
  unfold c0ControlOrSpace
  simp only [decide_eq_false_iff_not]
  omega

theorem tabOrNewline_eq_false {c : Char} (hc : visible c) : tabOrNewline c = false := by
  unfold tabOrNewline
  have h1 : c ≠ '\t' := by
    rintro rfl
    exact absurd hc (by decide)
  have h2 : c ≠ '\n' := by
    rintro rfl
    exact absurd hc (by decide)
  have h3 : c ≠ '\r' := by
    rintro rfl
    exact absurd hc (by decide)
  simp [h1, h2, h3]

theorem dropWhile_append_cons {α : Type} {p : α → Bool} {c : α} (hc : p c = false) :
    ∀ (l₁ l₂ : List α), (l₁ ++ c :: l₂).dropWhile p = l₁.dropWhile p ++ c :: l₂
  | [], l₂ => by simp [hc]
  | x :: xs, l₂ => by
      by_cases hx : p x = true
      · simp only [List.cons_append, List.dropWhile_cons, hx, if_true]
        exact dropWhile_append_cons hc xs l₂
      · simp [hx]

theorem filter_visible {l : List Char} (hl : ∀ c ∈ l, visible c) :
    l.filter (fun c => !tabOrNewline c) = l :=
  List.filter_eq_self.2 fun c hc => by simp [tabOrNewline_eq_false (hl c hc)]

/-- An input of visible characters is read as it is. -/
theorem preprocess_of_visible {input : String} (h : ∀ c ∈ input.toList, visible c) :
    preprocess input = input.toList := by
  have hfront : input.toList.dropWhile c0ControlOrSpace = input.toList := by
    cases hl : input.toList with
    | nil => rfl
    | cons x xs =>
        rw [hl] at h
        simp [c0ControlOrSpace_eq_false (h x List.mem_cons_self)]
  have hback : input.toList.reverse.dropWhile c0ControlOrSpace = input.toList.reverse := by
    cases hl : input.toList.reverse with
    | nil => rfl
    | cons x xs =>
        have hx : x ∈ input.toList := List.mem_reverse.1 (hl ▸ List.mem_cons_self)
        simp [c0ControlOrSpace_eq_false (h x hx)]
  unfold preprocess
  rw [hfront, hback, List.reverse_reverse, filter_visible h]

/-- An input whose first part is visible, followed by a visible character, is
read with that part and that character intact; only what follows changes. -/
theorem preprocess_cut {input : String} {pre rest : List Char} {c : Char}
    (hinput : input.toList = pre ++ c :: rest) (hpre : ∀ x ∈ pre, visible x) (hc : visible c) :
    ∃ rest', preprocess input = pre ++ c :: rest' := by
  have hfront : (pre ++ c :: rest).dropWhile c0ControlOrSpace = pre ++ c :: rest := by
    cases pre with
    | nil => simp [c0ControlOrSpace_eq_false hc]
    | cons x xs => simp [c0ControlOrSpace_eq_false (hpre x List.mem_cons_self)]
  have hback : (pre ++ c :: rest).reverse.dropWhile c0ControlOrSpace =
      rest.reverse.dropWhile c0ControlOrSpace ++ c :: pre.reverse := by
    rw [List.reverse_append, List.reverse_cons, List.append_assoc, List.singleton_append]
    exact dropWhile_append_cons (c0ControlOrSpace_eq_false hc) _ _
  refine ⟨((rest.reverse.dropWhile c0ControlOrSpace).reverse).filter fun c => !tabOrNewline c, ?_⟩
  unfold preprocess
  rw [hinput, hfront, hback, List.reverse_append, List.reverse_cons, List.reverse_reverse,
    List.append_assoc, List.singleton_append, List.filter_append, filter_visible hpre,
    List.filter_cons_of_pos (by simp [tabOrNewline_eq_false hc])]

/-- A character the opaque path keeps as it is and does not stop at. -/
def plainChar (c : Char) : Prop := 0x20 < c.toNat ∧ c.toNat < 0x7F ∧ c ≠ '?' ∧ c ≠ '#'

instance : DecidablePred plainChar := fun c =>
  inferInstanceAs (Decidable (0x20 < c.toNat ∧ c.toNat < 0x7F ∧ c ≠ '?' ∧ c ≠ '#'))

theorem encodeControl_plain {c : Char} (hc : plainChar c) : encodeControl c = [c] := by
  unfold encodeControl
  rw [if_neg]
  intro h
  rcases h with h | h
  · exact absurd h (by have := hc.1; omega)
  · exact absurd h (by have := hc.2.1; omega)

theorem opaquePath_plain : ∀ {l : List Char}, (∀ c ∈ l, plainChar c) → opaquePath l = l
  | [], _ => rfl
  | c :: rest, h => by
      have hc := h c List.mem_cons_self
      have hstop : ¬(c = '?' ∨ c = '#') := fun hq => hq.elim hc.2.2.1 hc.2.2.2
      rw [opaquePath, if_neg hstop, encodeControl_plain hc,
        opaquePath_plain fun x hx => h x (List.mem_cons_of_mem c hx)]
      rfl

theorem opaquePath_plain_append {l : List Char} (hl : ∀ c ∈ l, plainChar c) {c : Char}
    (hc : c = '?' ∨ c = '#') (rest : List Char) : opaquePath (l ++ c :: rest) = l := by
  induction l with
  | nil => simp [opaquePath, hc]
  | cons x xs ih =>
      have hx := hl x List.mem_cons_self
      have hstop : ¬(x = '?' ∨ x = '#') := fun hq => hq.elim hx.2.2.1 hx.2.2.2
      rw [List.cons_append, opaquePath, if_neg hstop, encodeControl_plain hx,
        ih fun y hy => hl y (List.mem_cons_of_mem x hy)]
      rfl

end EdgeRuntime.Verified.Paths
