import EdgeRuntime.Eszip.DataSection

/-!
# The data section as the eszip encoder lays it out

The eszip crate's encoder writes, for each module in order, the offset and
length of its source and of its source map into the header, `(0, 0)` for an
empty one, and appends the bytes and their checksum to the section of that
kind.  This module states that layout (`sectionBytes`, `dataSection`), the
module table `parse_v2_header` builds from the header, and the table once
some slots are loaded (`table`, with a flag per slot).

Over that layout it proves what the two pieces of `read_data_section_all`
that touch the modules do: a wake of a pending slot with its bytes marks the
slot loaded (`wakeModuleWithSlot_table`), and a section loop whose offset
table agrees with the layout does what `walk` says (`readSections_walk`): it
stops at the first section the table lacks with `InvalidV2SourceOffset`, and
otherwise reads each section still to be read and wakes its slot.

## Main results

* `wakeModuleWithSlot_table`: waking a pending slot with its bytes loads it.
* `table_congr`: the flags of empty slots do not matter.
* `readSections_walk`: the spec of a section loop over the layout.
-/

namespace EdgeRuntime.Eszip

open EdgeRuntime.Verified

/-- A module as the encoder is given it. -/
inductive ArchiveModule
  | module (source sourceMap : List UInt8)
  | redirect (target : String)
  deriving DecidableEq, Repr

/-- The bytes of the selected slot; none for a redirect. -/
def ArchiveModule.bytes : SlotKind → ArchiveModule → List UInt8
  | .source, .module source _ => source
  | .sourceMap, .module _ sourceMap => sourceMap
  | _, .redirect _ => []

/-- The modules of an eszip by specifier, in the order the encoder writes
them. -/
abbrev Archive := AList fun _ : String => ArchiveModule

/-- Options whose checksums have `checksum_size` bytes. -/
def Options.Fixed (o : Options) : Prop := ∀ b, (o.digest b).length = o.checksumSize

section Layout

variable (digest : List UInt8 → List UInt8)

/-- What the encoder appends to a section for one slot: nothing for empty
bytes, else the bytes and their checksum. -/
def chunk (b : List UInt8) : List UInt8 := if b = [] then [] else b ++ digest b

/-- The `(offset, length)` the encoder writes into the header for a slot. -/
def encodeLoc (offset : Nat) (b : List UInt8) : Nat × Nat :=
  if b = [] then (0, 0) else (offset, b.length)

/-- The sections of one kind of slot, in module order. -/
def sectionBytes (kind : SlotKind) : List (Sigma fun _ : String => ArchiveModule) → List UInt8
  | [] => []
  | ⟨_, a⟩ :: rest => chunk digest (a.bytes kind) ++ sectionBytes kind rest

/-- The data section: the sources' length, the sources, the source maps'
length and the source maps. -/
def dataSection (A : Archive) : List UInt8 :=
  be32 (sectionBytes digest .source A.entries).length ++ sectionBytes digest .source A.entries ++
    be32 (sectionBytes digest .sourceMap A.entries).length ++ sectionBytes digest .sourceMap A.entries

/-- The sections of both kinds fit the `u32` lengths. -/
def Fits (A : Archive) : Prop :=
  (sectionBytes digest .source A.entries).length < 2 ^ 32 ∧
    (sectionBytes digest .sourceMap A.entries).length < 2 ^ 32

/-- The offsets after a module. -/
def advance (offset : SlotKind → Nat) (a : ArchiveModule) : SlotKind → Nat :=
  fun kind => offset kind + (chunk digest (a.bytes kind)).length

end Layout

/-- A slot of the module table: `Ready` with its bytes once loaded, before
that the slot `parse_v2_header` makes of what the encoder wrote. -/
def slotAt (ready : Bool) (offset : Nat) (b : List UInt8) : SourceSlot :=
  if ready then .ready b else parseSlot (encodeLoc offset b).1 (encodeLoc offset b).2

/-- The module of the table, at the given offsets, with the given slots
loaded. -/
def ArchiveModule.toV2 (ready : SlotKind → Bool) (offset : SlotKind → Nat) : ArchiveModule → V2Module
  | .module source sourceMap =>
      .module (slotAt (ready .source) (offset .source) source)
        (slotAt (ready .sourceMap) (offset .sourceMap) sourceMap)
  | .redirect target => .redirect target

/-- The entries of the module table, laid out from `offset`. -/
def tableEntries (digest : List UInt8 → List UInt8) (ready : SlotKind → String → Bool) :
    (SlotKind → Nat) → List (Sigma fun _ : String => ArchiveModule) →
      List (Sigma fun _ : String => V2Module)
  | _, [] => []
  | offset, ⟨k, a⟩ :: rest =>
      ⟨k, a.toV2 (ready · k) offset⟩ :: tableEntries digest ready (advance digest offset a) rest

theorem keys_tableEntries (digest : List UInt8 → List UInt8) (ready : SlotKind → String → Bool) :
    ∀ (offset : SlotKind → Nat) (l : List (Sigma fun _ : String => ArchiveModule)),
      (tableEntries digest ready offset l).keys = l.keys
  | _, [] => rfl
  | offset, ⟨k, a⟩ :: rest => by
      simp only [tableEntries, List.keys_cons, keys_tableEntries digest ready _ rest]

/-- The module table of an eszip with the slots `ready` loaded. -/
def table (digest : List UInt8 → List UInt8) (A : Archive) (ready : SlotKind → String → Bool) :
    V2Modules :=
  ⟨tableEntries digest ready (fun _ => 0) A.entries, by
    rw [List.NodupKeys, keys_tableEntries]
    exact A.nodupKeys⟩

/-- The flags with one more slot loaded. -/
def setReady (ready : SlotKind → String → Bool) (kind : SlotKind) (k : String) :
    SlotKind → String → Bool :=
  fun kind' k' => ready kind' k' || (decide (kind' = kind) && decide (k' = k))

/-! ## Slots -/

section Slots

variable {digest : List UInt8 → List UInt8}

@[simp] theorem chunk_nil : chunk digest [] = [] := rfl

theorem chunk_of_ne_nil {b : List UInt8} (hb : b ≠ []) : chunk digest b = b ++ digest b :=
  if_neg hb

@[simp] theorem slotAt_true (offset : Nat) (b : List UInt8) : slotAt true offset b = .ready b := rfl

@[simp] theorem slotAt_nil (ready : Bool) (offset : Nat) : slotAt ready offset [] = .ready [] := by
  cases ready <;> rfl

theorem slotAt_false_of_ne_nil {b : List UInt8} (offset : Nat) (hb : b ≠ []) :
    slotAt false offset b = .pending offset b.length := by
  have hlen : b.length ≠ 0 := fun h => hb (List.length_eq_zero_iff.1 h)
  simp [slotAt, encodeLoc, parseSlot, hb, hlen]

theorem slot?_toV2_module (ready : SlotKind → Bool) (offset : SlotKind → Nat)
    (source sourceMap : List UInt8) (kind : SlotKind) :
    ((ArchiveModule.module source sourceMap).toV2 ready offset).slot? kind =
      some (slotAt (ready kind) (offset kind) ((ArchiveModule.module source sourceMap).bytes kind)) := by
  cases kind <;> rfl

/-- A slot with bytes belongs to a module. -/
theorem exists_module_of_bytes_ne_nil {a : ArchiveModule} {kind : SlotKind} (h : a.bytes kind ≠ []) :
    ∃ source sourceMap, a = .module source sourceMap := by
  cases a with
  | module source sourceMap => exact ⟨source, sourceMap, rfl⟩
  | redirect target => cases kind <;> exact absurd rfl h

/-- The flags of empty slots do not matter. -/
theorem toV2_congr {ready ready' : SlotKind → Bool} (offset : SlotKind → Nat) (a : ArchiveModule)
    (h : ∀ kind, a.bytes kind ≠ [] → ready kind = ready' kind) :
    a.toV2 ready offset = a.toV2 ready' offset := by
  cases a with
  | redirect target => rfl
  | module source sourceMap =>
      have hslot : ∀ kind, slotAt (ready kind) (offset kind) ((ArchiveModule.module source sourceMap).bytes kind) =
          slotAt (ready' kind) (offset kind) ((ArchiveModule.module source sourceMap).bytes kind) := by
        intro kind
        by_cases hb : (ArchiveModule.module source sourceMap).bytes kind = []
        · rw [hb, slotAt_nil, slotAt_nil]
        · rw [h kind hb]
      exact congrArg₂ V2Module.module (hslot .source) (hslot .sourceMap)

/-- Loading one slot of a module sets that slot. -/
theorem toV2_setReady (ready : SlotKind → String → Bool) (offset : SlotKind → Nat) (k : String)
    (source sourceMap : List UInt8) (kind : SlotKind) :
    (ArchiveModule.module source sourceMap).toV2 (setReady ready kind k · k) offset =
      ((ArchiveModule.module source sourceMap).toV2 (ready · k) offset).setSlot kind
        (.ready ((ArchiveModule.module source sourceMap).bytes kind)) := by
  cases kind <;> simp [ArchiveModule.toV2, setReady, V2Module.setSlot, ArchiveModule.bytes]

end Slots

/-! ## The table -/

section Table

variable {digest : List UInt8 → List UInt8}

theorem sectionBytes_append (kind : SlotKind) :
    ∀ l₁ l₂ : List (Sigma fun _ : String => ArchiveModule),
      sectionBytes digest kind (l₁ ++ l₂) = sectionBytes digest kind l₁ ++ sectionBytes digest kind l₂
  | [], _ => rfl
  | ⟨_, _⟩ :: rest, l₂ => by
      rw [List.cons_append, sectionBytes, sectionBytes, sectionBytes_append kind rest l₂,
        List.append_assoc]

theorem tableEntries_append (ready : SlotKind → String → Bool) :
    ∀ (offset : SlotKind → Nat) (l₁ l₂ : List (Sigma fun _ : String => ArchiveModule)),
      tableEntries digest ready offset (l₁ ++ l₂) =
        tableEntries digest ready offset l₁ ++
          tableEntries digest ready (fun kind => offset kind + (sectionBytes digest kind l₁).length) l₂
  | offset, [], l₂ => by simp [tableEntries, sectionBytes]
  | offset, ⟨k, a⟩ :: rest, l₂ => by
      have hoffset : (fun kind => advance digest offset a kind + (sectionBytes digest kind rest).length) =
          fun kind => offset kind + (sectionBytes digest kind (⟨k, a⟩ :: rest)).length := by
        funext kind
        simp only [advance, sectionBytes, List.length_append, Nat.add_assoc]
      rw [List.cons_append, tableEntries, tableEntries, tableEntries_append ready _ rest l₂, hoffset,
        List.cons_append]

theorem tableEntries_congr {ready ready' : SlotKind → String → Bool} :
    ∀ (offset : SlotKind → Nat) (l : List (Sigma fun _ : String => ArchiveModule)),
      (∀ e ∈ l, ∀ kind, e.2.bytes kind ≠ [] → ready kind e.1 = ready' kind e.1) →
        tableEntries digest ready offset l = tableEntries digest ready' offset l
  | _, [], _ => rfl
  | offset, ⟨k, a⟩ :: rest, h => by
      rw [tableEntries, tableEntries, toV2_congr offset a (h ⟨k, a⟩ List.mem_cons_self),
        tableEntries_congr _ rest fun e he => h e (List.mem_cons_of_mem _ he)]

/-- The flags of empty slots do not matter. -/
theorem table_congr {A : Archive} {ready ready' : SlotKind → String → Bool}
    (h : ∀ k a, A.lookup k = some a → ∀ kind, a.bytes kind ≠ [] → ready kind k = ready' kind k) :
    table digest A ready = table digest A ready' := by
  apply AList.ext
  refine tableEntries_congr _ _ fun e he kind hb => h e.1 e.2 ?_ kind hb
  exact AList.mem_lookup_iff.2 he

/-- The module of a specifier, at the offsets its sections have. -/
theorem lookup_table {A : Archive} {ready : SlotKind → String → Bool} {l₁ l₂ : List _} {k : String}
    {a : ArchiveModule} (hA : A.entries = l₁ ++ ⟨k, a⟩ :: l₂) :
    (table digest A ready).lookup k =
      some (a.toV2 (ready · k) fun kind => (sectionBytes digest kind l₁).length) := by
  apply AList.mem_lookup_iff.2
  show _ ∈ tableEntries digest ready (fun _ => 0) A.entries
  rw [hA, tableEntries_append, tableEntries]
  simp

theorem lookup_of_entries_eq {A : Archive} {l₁ l₂ : List _} {k : String} {a : ArchiveModule}
    (hA : A.entries = l₁ ++ ⟨k, a⟩ :: l₂) : A.lookup k = some a :=
  AList.mem_lookup_iff.2 (by rw [hA]; simp)

/-- A specifier is not among the modules before it, nor among those after. -/
theorem not_mem_keys_of_entries_eq {A : Archive} {l₁ l₂ : List _} {k : String}
    {a : ArchiveModule} (hA : A.entries = l₁ ++ ⟨k, a⟩ :: l₂) : k ∉ l₁.keys ∧ k ∉ l₂.keys := by
  have hnodup := A.nodupKeys
  rw [hA, List.NodupKeys, List.keys_append, List.keys_cons] at hnodup
  exact ⟨fun h => List.disjoint_of_nodup_append hnodup h List.mem_cons_self,
    (List.nodup_cons.1 (List.Nodup.of_append_right hnodup)).1⟩

/-- Waking a pending slot with its bytes loads it. -/
theorem wakeModuleWithSlot_table {A : Archive} {ready : SlotKind → String → Bool} {k : String}
    {a : ArchiveModule} {kind : SlotKind} (hk : A.lookup k = some a) (hb : a.bytes kind ≠ [])
    (hpending : ready kind k = false) :
    wakeModuleWithSlot (table digest A ready) k kind (.ready (a.bytes kind)) =
      .ok (table digest A (setReady ready kind k)) := by
  obtain ⟨source, sourceMap, rfl⟩ := exists_module_of_bytes_ne_nil hb
  obtain ⟨l₁, l₂, hA⟩ := List.append_of_mem (AList.mem_lookup_iff.1 hk)
  obtain ⟨hnot, hrest⟩ := not_mem_keys_of_entries_eq hA
  -- the loaded flag of `k` only differs at `k`, which is not among the other modules
  have hother : ∀ l : List (Sigma fun _ : String => ArchiveModule), k ∉ l.keys →
      ∀ offset, tableEntries digest (setReady ready kind k) offset l = tableEntries digest ready offset l := by
    intro l hl offset
    refine tableEntries_congr offset l fun e he kind' _ => ?_
    have hne : e.1 ≠ k := fun h => hl (h ▸ List.mem_keys_of_mem he)
    simp [setReady, hne]
  rw [wakeModuleWithSlot, lookup_table hA]
  simp only [slot?_toV2_module, hpending, slotAt_false_of_ne_nil _ hb, Except.ok.injEq]
  apply AList.ext
  show List.kreplace k _ (tableEntries digest ready (fun _ => 0) A.entries) =
    tableEntries digest (setReady ready kind k) (fun _ => 0) A.entries
  rw [hA, tableEntries_append, tableEntries_append, tableEntries, tableEntries]
  simp only [Nat.zero_add]
  rw [kreplace_append_cons _ _ _ _ (by rwa [keys_tableEntries]), hother l₁ hnot, hother l₂ hrest,
    toV2_setReady]

end Table

/-! ## The section loop -/

section Walk

variable (digest : List UInt8 → List UInt8) (kind : SlotKind)

/-- The offset table holds the section of every non-empty slot of the
modules laid out from `read`, with its length and module; `want` says
whether the table holds it, and if so whether it is still to be read. -/
def Agrees (tbl : AList fun _ : Nat => OffsetEntry) (want : String → Option Bool) :
    Nat → List (Sigma fun _ : String => ArchiveModule) → Prop
  | _, [] => True
  | read, ⟨k, a⟩ :: rest =>
      (a.bytes kind ≠ [] → tbl.lookup read = (want k).map (OffsetEntry.mk (a.bytes kind).length k)) ∧
        Agrees tbl want (read + (chunk digest (a.bytes kind)).length) rest

/-- What the loop over the sections of `kind` does with a table that agrees
with the layout: it stops at the first section the table lacks, and loads
the slots it reads. -/
def walk (want : String → Option Bool) :
    (SlotKind → String → Bool) → Nat → List (Sigma fun _ : String => ArchiveModule) →
      Except Nat (SlotKind → String → Bool)
  | ready, _, [] => .ok ready
  | ready, read, ⟨k, a⟩ :: rest =>
    if a.bytes kind = [] then walk want ready read rest
    else match want k with
      | none => .error read
      | some true => walk want (setReady ready kind k) (read + (chunk digest (a.bytes kind)).length) rest
      | some false => walk want ready (read + (chunk digest (a.bytes kind)).length) rest

variable {digest kind}

/-- Removing an offset below the layout keeps the agreement. -/
theorem agrees_erase {tbl : AList fun _ : Nat => OffsetEntry} {want : String → Option Bool} {x : Nat} :
    ∀ {read : Nat} {l : List (Sigma fun _ : String => ArchiveModule)}, x < read →
      Agrees digest kind tbl want read l → Agrees digest kind (tbl.erase x) want read l
  | _, [], _, _ => trivial
  | _, ⟨_, _⟩ :: _, hx, ⟨hhead, hrest⟩ =>
      ⟨fun hb => by rw [AList.lookup_erase_ne (by omega)]; exact hhead hb,
        agrees_erase (by omega) hrest⟩

end Walk

theorem length_chunk_of_ne_nil {o : Options} (ho : o.Fixed) {b : List UInt8} (hb : b ≠ []) :
    (chunk o.digest b).length = b.length + o.checksumSize := by
  rw [chunk_of_ne_nil hb, List.length_append, ho]

/-- A section is read back as the encoder wrote it. -/
theorem readWithSize_chunk {o : Options} (ho : o.Fixed) {b : List UInt8} (hb : b ≠ [])
    (pre post : List UInt8) :
    Section.readWithSize o (pre ++ chunk o.digest b ++ post) pre.length b.length =
      some ⟨b, o.digest b⟩ := by
  rw [Section.readWithSize, ← length_chunk_of_ne_nil ho hb, readExact_append, Option.map_some,
    chunk_of_ne_nil hb, List.take_left, List.drop_left]

/-- The spec of a section loop over the layout: started at the section after
the modules `l₁` with a table that agrees with the layout of the modules
`l₂` after them, it does what `walk` says. -/
theorem readSections_walk {o : Options} (ho : o.Fixed) {A : Archive} {kind : SlotKind}
    {seekPast : Nat → Nat} {want : String → Option Bool} (pre post : List UInt8)
    (hseek : ∀ k a, A.lookup k = some a → a.bytes kind ≠ [] → want k = some false →
      seekPast (a.bytes kind).length = (a.bytes kind).length + o.checksumSize) :
    ∀ (l₂ l₁ : List (Sigma fun _ : String => ArchiveModule)) (ready : SlotKind → String → Bool)
      (tbl : AList fun _ : Nat => OffsetEntry), A.entries = l₁ ++ l₂ →
      (∀ e ∈ l₂, e.2.bytes kind ≠ [] → want e.1 = some true → ready kind e.1 = false) →
      Agrees o.digest kind tbl want (sectionBytes o.digest kind l₁).length l₂ →
      readSections o (pre ++ sectionBytes o.digest kind A.entries ++ post) kind seekPast
          (sectionBytes o.digest kind A.entries).length tbl (sectionBytes o.digest kind l₁).length
          (pre.length + (sectionBytes o.digest kind l₁).length) (table o.digest A ready) =
        match walk o.digest kind want ready (sectionBytes o.digest kind l₁).length l₂ with
        | .ok ready' =>
            .ok (table o.digest A ready', pre.length + (sectionBytes o.digest kind A.entries).length)
        | .error read => .error (.err (.invalidV2SourceOffset read))
  | [], l₁, ready, tbl, hA, _, _ => by
      rw [List.append_nil] at hA
      rw [hA, readSections_done (Nat.lt_irrefl _)]
      rfl
  | ⟨k, a⟩ :: rest, l₁, ready, tbl, hA, hpending, hagree => by
      have hA' : A.entries = (l₁ ++ [⟨k, a⟩]) ++ rest := by rw [hA, List.append_cons]
      have hsec : (sectionBytes o.digest kind (l₁ ++ [⟨k, a⟩])).length =
          (sectionBytes o.digest kind l₁).length + (chunk o.digest (a.bytes kind)).length := by
        rw [sectionBytes_append, List.length_append, sectionBytes, sectionBytes, List.append_nil]
      have hnext := readSections_walk ho pre post hseek rest (l₁ ++ [⟨k, a⟩])
      rw [hsec] at hnext
      by_cases hb : a.bytes kind = []
      · -- an empty slot has no section: the loop does not turn
        rw [hb, chunk_nil, List.length_nil, Nat.add_zero] at hnext
        rw [hnext ready tbl hA' (fun e he => hpending e (List.mem_cons_of_mem _ he)) (by
          simpa [hb] using hagree.2)]
        simp only [walk, if_pos hb]
      · obtain ⟨-, hrest⟩ := not_mem_keys_of_entries_eq hA
        have hk : A.lookup k = some a := lookup_of_entries_eq hA
        have hchunk := length_chunk_of_ne_nil ho hb
        have hlt : (sectionBytes o.digest kind l₁).length < (sectionBytes o.digest kind A.entries).length := by
          rw [hA', sectionBytes_append, List.length_append, hsec]
          have : 0 < (chunk o.digest (a.bytes kind)).length := by
            rw [hchunk]
            exact Nat.lt_of_lt_of_le (List.length_pos_iff.2 hb) (Nat.le_add_right _ _)
          omega
        have hagree' : Agrees o.digest kind (tbl.erase (sectionBytes o.digest kind l₁).length) want
            ((sectionBytes o.digest kind l₁).length + (chunk o.digest (a.bytes kind)).length) rest :=
          agrees_erase (by rw [hchunk]; have := List.length_pos_iff.2 hb; omega) hagree.2
        rcases hwant : want k with _ | _ | _
        · -- the table lacks the section: the loop stops here
          rw [readSections_missing hlt (by rw [hagree.1 hb, hwant]; rfl)]
          simp only [walk, if_neg hb, hwant]
        · -- a section loaded before: skipped
          rw [readSections_skip hlt (by rw [hagree.1 hb, hwant]; rfl), hseek k a hk hb hwant,
            Nat.add_assoc, Nat.add_assoc, ← hchunk,
            hnext ready _ hA' (fun e he => hpending e (List.mem_cons_of_mem _ he)) hagree']
          simp only [walk, if_neg hb, hwant]
        · -- a section still to be read: read and woken
          have hbuf : pre ++ sectionBytes o.digest kind A.entries ++ post =
              (pre ++ sectionBytes o.digest kind l₁) ++ chunk o.digest (a.bytes kind) ++
                (sectionBytes o.digest kind rest ++ post) := by
            rw [hA, sectionBytes_append, sectionBytes]
            simp only [List.append_assoc]
          have hread : Section.readWithSize o (pre ++ sectionBytes o.digest kind A.entries ++ post)
              (pre.length + (sectionBytes o.digest kind l₁).length) (a.bytes kind).length =
                some ⟨a.bytes kind, o.digest (a.bytes kind)⟩ := by
            rw [hbuf, ← List.length_append]
            exact readWithSize_chunk ho hb _ _
          have htotal : (Section.mk (a.bytes kind) (o.digest (a.bytes kind))).totalLen =
              (chunk o.digest (a.bytes kind)).length := by
            rw [Section.totalLen, hchunk, ho]
          have hpending' : ∀ e ∈ rest, e.2.bytes kind ≠ [] → want e.1 = some true →
              setReady ready kind k kind e.1 = false := by
            intro e he hbe hwe
            have hne : e.1 ≠ k := fun h => hrest (h ▸ List.mem_keys_of_mem he)
            simp [setReady, hne, hpending e (List.mem_cons_of_mem _ he) hbe hwe]
          rw [readSections_load hlt (by rw [hagree.1 hb, hwant]; rfl) hread
              (by simp [Section.isChecksumValid])
              (wakeModuleWithSlot_table hk hb (hpending ⟨k, a⟩ List.mem_cons_self hb hwant)),
            htotal, Nat.add_assoc, hnext _ _ hA' hpending' hagree']
          simp only [walk, if_neg hb, hwant]

end EdgeRuntime.Eszip
