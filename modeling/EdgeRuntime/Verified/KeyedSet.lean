import Mathlib.Data.List.Perm.Basic
import Mathlib.Data.List.Nodup

/-!
# Hash sets whose elements are identified by a key

A `HashSet` of records whose `Eq` and `Hash` look at one field only (a
`WorkerId` is equal to another when the uuids agree, whatever the flag) is a
list of elements with pairwise distinct keys.  The list order is the
iteration order: lookups do not depend on it, but `iter().nth(i)` and
`iter().position(p)` do.

The operations follow `std::collections::HashSet`:

* `insert` leaves the set unchanged when an equal element is present (the old
  element is kept, not replaced), and otherwise adds the element;
* `replace` overwrites the equal element in place, or adds the element;
* `remove` drops the element with the key;
* `relayout` is a change of iteration order with the same elements, which is
  what a resize of the underlying table does.

Where a fresh element lands in the iteration order is the table's business;
here it is appended, and `relayout` supplies every other order, so a result
proved over runs that may relayout at any point holds for every layout.
-/

namespace EdgeRuntime.Verified

universe u v

/-- Elements with pairwise distinct keys, in iteration order. -/
structure KeyedSet {α : Type u} {κ : Type v} (key : α → κ) where
  items : List α
  nodup : (items.map key).Nodup

namespace KeyedSet

variable {α : Type u} {κ : Type v} {key : α → κ}

/-- The keys, in iteration order. -/
def keys (s : KeyedSet key) : List κ := s.items.map key

/-- The empty set. -/
def empty : KeyedSet key := ⟨[], List.nodup_nil⟩

theorem mem_keys {s : KeyedSet key} {k : κ} : k ∈ s.keys ↔ ∃ a ∈ s.items, key a = k := by
  simp [keys]

theorem key_mem_keys {s : KeyedSet key} {a : α} (h : a ∈ s.items) : key a ∈ s.keys :=
  mem_keys.2 ⟨a, h, rfl⟩

/-- Two elements with the same key are the same element. -/
theorem eq_of_key_eq {s : KeyedSet key} {a b : α} (ha : a ∈ s.items) (hb : b ∈ s.items)
    (hk : key a = key b) : a = b :=
  List.inj_on_of_nodup_map s.nodup ha hb hk

/-- Rewriting elements without changing their keys keeps the keys apart. -/
private theorem nodup_map_of_key {s : KeyedSet key} (f : α → α)
    (hf : ∀ b, key (f b) = key b) : ((s.items.map f).map key).Nodup := by
  rw [List.map_map, show key ∘ f = key from funext hf]
  exact s.nodup

/-- A change of iteration order: applied only when `l` is a permutation of
the elements. -/
def relayout [DecidableEq α] (s : KeyedSet key) (l : List α) : KeyedSet key :=
  if h : l.Perm s.items then ⟨l, (h.map key).nodup_iff.2 s.nodup⟩ else s

theorem mem_relayout [DecidableEq α] {s : KeyedSet key} {l : List α} {b : α} :
    b ∈ (s.relayout l).items ↔ b ∈ s.items := by
  unfold relayout
  split
  · rename_i h
    exact h.mem_iff
  · exact Iff.rfl

variable [DecidableEq κ]

/-- `HashSet::get`: the stored element with key `k`. -/
def get? (s : KeyedSet key) (k : κ) : Option α := s.items.find? fun a => key a = k

/-- `HashSet::insert`: no change when the key is present. -/
def insert (s : KeyedSet key) (a : α) : KeyedSet key :=
  if h : key a ∈ s.keys then s
  else ⟨s.items ++ [a], by
    rw [List.map_append, List.nodup_append]
    exact ⟨s.nodup, List.nodup_singleton _, by simpa [keys] using h⟩⟩

/-- `HashSet::replace`: overwrite the element with the same key in place,
or add the element when there is none. -/
def replace (s : KeyedSet key) (a : α) : KeyedSet key :=
  if key a ∈ s.keys then
    ⟨s.items.map (fun b => if key b = key a then a else b),
      nodup_map_of_key _ (fun b => by by_cases h : key b = key a <;> simp [h])⟩
  else s.insert a

/-- `HashSet::remove`. -/
def remove (s : KeyedSet key) (k : κ) : KeyedSet key :=
  ⟨s.items.filter (fun a => key a ≠ k), (List.filter_sublist.map key).nodup s.nodup⟩

/-! ## Membership after each operation -/

theorem get?_eq_some {s : KeyedSet key} {k : κ} {a : α} :
    s.get? k = some a ↔ a ∈ s.items ∧ key a = k := by
  constructor
  · intro h
    exact ⟨List.mem_of_find?_eq_some h, by simpa using List.find?_some h⟩
  · rintro ⟨ha, rfl⟩
    obtain ⟨b, hb⟩ : ∃ b, s.get? (key a) = some b := by
      apply Option.isSome_iff_exists.1
      exact List.find?_isSome.2 ⟨a, ha, by simp⟩
    have hbmem := List.mem_of_find?_eq_some hb
    have hbkey : key b = key a := by simpa using List.find?_some hb
    rw [hb, eq_of_key_eq hbmem ha hbkey]

theorem mem_insert {s : KeyedSet key} {a b : α} :
    b ∈ (s.insert a).items ↔ b ∈ s.items ∨ (b = a ∧ key a ∉ s.keys) := by
  unfold insert
  split
  · rename_i h
    simp [h]
  · rename_i h
    simp [h]

theorem mem_keys_insert {s : KeyedSet key} {a : α} {k : κ} :
    k ∈ (s.insert a).keys ↔ k = key a ∨ k ∈ s.keys := by
  unfold insert
  split
  · rename_i h
    constructor
    · exact Or.inr
    · rintro (rfl | hk)
      · exact h
      · exact hk
  · simp [keys, or_comm]

theorem mem_replace {s : KeyedSet key} {a b : α} (h : key a ∈ s.keys) :
    b ∈ (s.replace a).items ↔ b = a ∨ (b ∈ s.items ∧ key b ≠ key a) := by
  simp only [replace, h, if_true, List.mem_map]
  constructor
  · rintro ⟨c, hc, rfl⟩
    by_cases hca : key c = key a
    · exact Or.inl (if_pos hca)
    · exact Or.inr (by simp [hca, hc])
  · rintro (rfl | ⟨hb, hba⟩)
    · obtain ⟨c, hc, hca⟩ := mem_keys.1 h
      exact ⟨c, hc, if_pos hca⟩
    · exact ⟨b, hb, if_neg hba⟩

theorem keys_replace {s : KeyedSet key} {a : α} (h : key a ∈ s.keys) :
    (s.replace a).keys = s.keys := by
  have h' : key a ∈ s.items.map key := h
  simp only [replace, keys, h', if_true, List.map_map]
  congr 1
  funext b
  by_cases hb : key b = key a <;> simp [hb]

/-- `replace` of a present key keeps every position, and overwrites the one
element with that key. -/
theorem getElem?_replace {s : KeyedSet key} {a : α} (h : key a ∈ s.keys) (i : Nat) :
    (s.replace a).items[i]? = s.items[i]?.map fun b => if key b = key a then a else b := by
  simp only [replace, h, if_true, List.getElem?_map]

theorem length_replace {s : KeyedSet key} {a : α} (h : key a ∈ s.keys) :
    (s.replace a).items.length = s.items.length := by
  simp only [replace, h, if_true, List.length_map]

theorem mem_remove {s : KeyedSet key} {k : κ} {b : α} :
    b ∈ (s.remove k).items ↔ b ∈ s.items ∧ key b ≠ k := by
  simp [remove]

theorem mem_keys_remove {s : KeyedSet key} {k k' : κ} :
    k' ∈ (s.remove k).keys ↔ k' ∈ s.keys ∧ k' ≠ k := by
  simp only [mem_keys, mem_remove]
  constructor
  · rintro ⟨a, ⟨ha, hak⟩, rfl⟩
    exact ⟨⟨a, ha, rfl⟩, hak⟩
  · rintro ⟨⟨a, ha, rfl⟩, hak⟩
    exact ⟨a, ⟨ha, hak⟩, rfl⟩

/-- Removing a key the set holds shrinks it. -/
theorem length_remove_lt {s : KeyedSet key} {k : κ} (h : k ∈ s.keys) :
    (s.remove k).items.length < s.items.length := by
  obtain ⟨a, ha, rfl⟩ := mem_keys.1 h
  exact List.length_filter_lt_length_iff_exists.2 ⟨a, ha, by simp⟩

end KeyedSet

end EdgeRuntime.Verified
