import Mathlib.Data.List.AList

/-!
# Hash maps as association lists

A `HashMap` that is only looked up, removed from and updated in place is an
`AList`:

* `collect` is `Iterator::collect::<HashMap<_, _>>()` of a list of pairs,
  which inserts them in order, so that of two pairs with one key the later
  one stays;
* `remove` is `lookup` followed by `erase` (`AList.extract`);
* `get_mut` followed by an assignment is `AList.replace`, which keeps the
  iteration order of a `LinkedHashMap`;
* `LinkedHashMap::insert` is `insertBack`: the pair goes to the back of the
  iteration order, and a pair with its key is dropped from where it was.

The lemmas say what a lookup in a collected map finds, and that a removal of
a present key shrinks the map, which is what a loop that removes one key a
turn terminates by.
-/

namespace EdgeRuntime.Verified

variable {α β : Type*} [DecidableEq α]

/-- `collect` into a hash map: the pairs inserted in order. -/
def collect (l : List (α × β)) : AList fun _ : α => β :=
  l.foldl (fun m p => m.insert p.1 p.2) ∅

section Collect

theorem lookup_foldl_insert_of_not_mem {a : α} :
    ∀ {l : List (α × β)} (m : AList fun _ : α => β), a ∉ l.map Prod.fst →
      (l.foldl (fun m p => m.insert p.1 p.2) m).lookup a = m.lookup a
  | [], _, _ => rfl
  | p :: rest, m, ha => by
      simp only [List.map_cons, List.mem_cons, not_or] at ha
      rw [List.foldl_cons, lookup_foldl_insert_of_not_mem _ ha.2,
        AList.lookup_insert_ne ha.1]

theorem mem_of_lookup_foldl_insert {a : α} {b : β} :
    ∀ {l : List (α × β)} {m : AList fun _ : α => β},
      (l.foldl (fun m p => m.insert p.1 p.2) m).lookup a = some b →
        (a, b) ∈ l ∨ m.lookup a = some b
  | [], _, h => .inr h
  | p :: rest, m, h => by
      rw [List.foldl_cons] at h
      rcases mem_of_lookup_foldl_insert h with hrest | hm
      · exact .inl (List.mem_cons_of_mem _ hrest)
      · by_cases hp : a = p.1
        · subst hp
          rw [AList.lookup_insert, Option.some_inj] at hm
          subst hm
          exact .inl List.mem_cons_self
        · rw [AList.lookup_insert_ne hp] at hm
          exact .inr hm

/-- A key no pair has is not in the collected map. -/
theorem lookup_collect_of_not_mem {l : List (α × β)} {a : α} (h : a ∉ l.map Prod.fst) :
    (collect l).lookup a = none :=
  lookup_foldl_insert_of_not_mem ∅ h

/-- What the collected map holds is one of the pairs. -/
theorem mem_of_lookup_collect {l : List (α × β)} {a : α} {b : β}
    (h : (collect l).lookup a = some b) : (a, b) ∈ l :=
  (mem_of_lookup_foldl_insert h).resolve_right (by simp)

theorem lookup_foldl_insert_of_unique {a : α} {b : β} :
    ∀ {l : List (α × β)} (m : AList fun _ : α => β), (a, b) ∈ l →
      (∀ b', (a, b') ∈ l → b' = b) → (l.foldl (fun m p => m.insert p.1 p.2) m).lookup a = some b
  | [], _, hmem, _ => absurd hmem List.not_mem_nil
  | p :: rest, m, hmem, huniq => by
      have huniq' : ∀ b', (a, b') ∈ rest → b' = b := fun b' h => huniq b' (List.mem_cons_of_mem _ h)
      rw [List.foldl_cons]
      by_cases hrest : (a, b) ∈ rest
      · exact lookup_foldl_insert_of_unique _ hrest huniq'
      · -- the pair is the head, and no later pair has its key
        have hp : p = (a, b) := ((List.mem_cons.1 hmem).resolve_right hrest).symm
        have hkey : a ∉ rest.map Prod.fst := by
          intro h
          obtain ⟨⟨a', b'⟩, hmem', ha⟩ := List.mem_map.1 h
          subst ha
          exact hrest (huniq' b' hmem' ▸ hmem')
        rw [lookup_foldl_insert_of_not_mem _ hkey, hp, AList.lookup_insert]

/-- A key whose pairs all carry one value maps to it. -/
theorem lookup_collect_of_unique {l : List (α × β)} {a : α} {b : β} (hmem : (a, b) ∈ l)
    (huniq : ∀ b', (a, b') ∈ l → b' = b) : (collect l).lookup a = some b :=
  lookup_foldl_insert_of_unique ∅ hmem huniq

end Collect

/-- Removing a present key shrinks the map. -/
theorem keys_length_erase_lt {γ : α → Type*} {s : AList γ} {a : α} {b : γ a}
    (h : s.lookup a = some b) : (s.erase a).keys.length < s.keys.length := by
  have hmem : a ∈ s.keys := AList.lookup_isSome.1 (by rw [h]; rfl)
  rw [AList.keys_erase, List.length_erase_of_mem hmem]
  have : 0 < s.keys.length := List.length_pos_of_mem hmem
  omega

section Replace

variable {γ : α → Type*}

theorem kreplace_cons_self (a : α) (b b' : γ a) (l : List (Sigma γ)) :
    List.kreplace a b (⟨a, b'⟩ :: l) = ⟨a, b⟩ :: l :=
  List.lookmap_cons_some _ l (if_pos rfl)

theorem kreplace_cons_ne {a a' : α} (b : γ a) (b' : γ a') (l : List (Sigma γ)) (h : a ≠ a') :
    List.kreplace a b (⟨a', b'⟩ :: l) = ⟨a', b'⟩ :: List.kreplace a b l :=
  List.lookmap_cons_none _ l (if_neg h)

/-- Replacing the value of a key replaces its first occurrence. -/
theorem kreplace_append_cons (a : α) (b b' : γ a) (l₂ : List (Sigma γ)) :
    ∀ {l₁ : List (Sigma γ)}, a ∉ l₁.keys →
      List.kreplace a b (l₁ ++ ⟨a, b'⟩ :: l₂) = l₁ ++ ⟨a, b⟩ :: l₂
  | [], _ => kreplace_cons_self a b b' l₂
  | ⟨a', c⟩ :: rest, h => by
      simp only [List.keys_cons, List.mem_cons, not_or] at h
      rw [List.cons_append, kreplace_cons_ne b c _ h.1, kreplace_append_cons a b b' l₂ h.2,
        List.cons_append]

theorem dlookup_kreplace_of_ne {a a' : α} (b : γ a) (h : a' ≠ a) :
    ∀ l : List (Sigma γ), (List.kreplace a b l).dlookup a' = l.dlookup a'
  | [] => rfl
  | ⟨c, d⟩ :: rest => by
      by_cases hc : a = c
      · subst hc
        rw [kreplace_cons_self, List.dlookup_cons_ne _ _ h, List.dlookup_cons_ne _ _ h]
      · rw [kreplace_cons_ne _ _ _ hc]
        by_cases hc' : a' = c
        · subst hc'
          rw [List.dlookup_cons_eq, List.dlookup_cons_eq]
        · rw [List.dlookup_cons_ne _ _ hc', List.dlookup_cons_ne _ _ hc', dlookup_kreplace_of_ne b h rest]

theorem dlookup_kreplace_self {a : α} (b : γ a) :
    ∀ {l : List (Sigma γ)}, a ∈ l.keys → (List.kreplace a b l).dlookup a = some b
  | [], h => absurd h List.not_mem_nil
  | ⟨c, d⟩ :: rest, h => by
      by_cases hc : a = c
      · subst hc
        rw [kreplace_cons_self, List.dlookup_cons_eq]
      · rw [kreplace_cons_ne _ _ _ hc, List.dlookup_cons_ne _ _ hc]
        rw [List.keys_cons, List.mem_cons] at h
        exact dlookup_kreplace_self b (h.resolve_left hc)

/-- `get_mut` and an assignment: the key present now holds the new value. -/
theorem lookup_replace_self {a : α} (b : γ a) {s : AList γ} (h : a ∈ s) :
    (s.replace a b).lookup a = some b :=
  dlookup_kreplace_self b h

/-- `get_mut` and an assignment leave every other key as it was. -/
theorem lookup_replace_of_ne {a a' : α} (b : γ a) (s : AList γ) (h : a' ≠ a) :
    (s.replace a b).lookup a' = s.lookup a' :=
  dlookup_kreplace_of_ne b h s.entries

end Replace

section InsertBack

variable {γ : α → Type*}

theorem nodupKeys_kerase_append (a : α) (b : γ a) {l : List (Sigma γ)} (hl : l.NodupKeys) :
    (l.kerase a ++ [Sigma.mk a b]).NodupKeys := by
  rw [List.NodupKeys, List.keys_append, List.nodup_append]
  refine ⟨hl.kerase a, List.nodup_singleton a, ?_⟩
  intro x hx y hy hxy
  rw [List.keys_cons, List.keys_nil, List.mem_singleton] at hy
  have hxa : x = a := hxy.trans hy
  subst hxa
  exact List.notMem_keys_kerase x hl hx

/-- `LinkedHashMap::insert`: the pair goes to the back. -/
def insertBack (a : α) (b : γ a) (s : AList γ) : AList γ :=
  ⟨s.entries.kerase a ++ [Sigma.mk a b], nodupKeys_kerase_append a b s.nodupKeys⟩

/-- Inserting a new key appends its pair. -/
theorem entries_insertBack_of_not_mem {a : α} (b : γ a) {s : AList γ} (h : a ∉ s) :
    (insertBack a b s).entries = s.entries ++ [Sigma.mk a b] := by
  show s.entries.kerase a ++ _ = _
  rw [List.kerase_of_notMem_keys h]

theorem mem_insertBack {a a' : α} {b : γ a} {s : AList γ} :
    a' ∈ insertBack a b s ↔ a' = a ∨ a' ∈ s := by
  show a' ∈ (s.entries.kerase a ++ [Sigma.mk a b]).keys ↔ a' = a ∨ a' ∈ s.entries.keys
  rw [List.keys_append, List.mem_append, List.keys_cons, List.keys_nil, List.mem_singleton]
  by_cases h : a' = a
  · simp only [h, or_true, true_or]
  · rw [List.mem_keys_kerase_of_ne h]
    tauto

/-- Inserting new keys one after another appends their pairs in order. -/
theorem entries_foldl_insertBack :
    ∀ (l : List (Sigma γ)) (s : AList γ), (l.map Sigma.fst).Nodup → (∀ x ∈ l, x.1 ∉ s) →
      (l.foldl (fun m x => insertBack x.1 x.2 m) s).entries = s.entries ++ l
  | [], s, _, _ => (List.append_nil _).symm
  | x :: l, s, hnodup, hfresh => by
      rw [List.map_cons, List.nodup_cons] at hnodup
      have hfresh' : ∀ y ∈ l, y.1 ∉ insertBack x.1 x.2 s := by
        intro y hy hmem
        rcases mem_insertBack.1 hmem with hyx | hys
        · exact hnodup.1 (hyx ▸ List.mem_map_of_mem hy)
        · exact hfresh y (List.mem_cons_of_mem _ hy) hys
      rw [List.foldl_cons, entries_foldl_insertBack l _ hnodup.2 hfresh',
        entries_insertBack_of_not_mem _ (hfresh x List.mem_cons_self), List.append_assoc,
        List.singleton_append]

end InsertBack

end EdgeRuntime.Verified
