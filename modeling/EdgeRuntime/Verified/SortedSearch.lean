import Mathlib

/-!
# Binary search over a slice, and sorted insertion

`slice::binary_search_by` of the Rust standard library (in the form of Rust
1.79) keeps a window `[left, right)` of the slice; each round compares the
element in the middle of the window with the target through the caller's
function `f`, returns `Ok(mid)` on `Equal`, and otherwise halves the window;
an empty window gives `Err(left)`.  The standard library documents the result
only for a slice sorted by `f`; on any other slice it is whatever the rounds
happen to compute, and this module keeps that computation, so that a caller
can be checked against an unsorted slice as well.

A slice is modelled by a list and the result `Result<usize, usize>` by
`Except Nat Nat`: `.ok i` for `Ok(i)`, `.error i` for `Err(i)`.  The loop
carries `right ≤ xs.length`, the bound the source's `get_unchecked` relies
on.

Sortedness is stated for the comparison a caller passes, `compare (key x) t`
for a key into a linear order, as the strict order of the keys.

## Main results

* `binarySearchBy_ok`: an `Ok(i)` points at an element that compares `Equal`.
* `binarySearchBy_error`: on a list whose keys strictly increase, `Err(i)`
  is the insertion point: the keys before `i` are below the target and those
  from `i` on above it.
* `binarySearchBy_eq_ok_of_mem`: on such a list a present key is found, at
  the index of its element.
* `pairwise_insertIdx`: inserting at the insertion point keeps the keys
  strictly increasing.
* `find?_insertIdx_of_not`, `find?_set_of_not`: inserting or replacing
  elements a predicate rejects leaves what `find?` finds by it.
-/

namespace EdgeRuntime.Verified.SortedSearch

variable {α κ : Type*}

/-- The loop of `binary_search_by` over the window `[left, right)`. -/
def searchLoop (f : α → Ordering) (xs : List α) (left right : Nat)
    (hright : right ≤ xs.length) : Except Nat Nat :=
  if h : left < right then
    let mid := left + (right - left) / 2
    have hmid : mid < xs.length := by omega
    match f xs[mid] with
    | .lt => searchLoop f xs (mid + 1) right hright
    | .gt => searchLoop f xs left mid (by omega)
    | .eq => .ok mid
  else .error left
termination_by right - left

/-- `slice::binary_search_by`. -/
def binarySearchBy (f : α → Ordering) (xs : List α) : Except Nat Nat :=
  searchLoop f xs 0 xs.length (Nat.le_refl _)

/-! ## `Ok` -/

theorem searchLoop_ok {f : α → Ordering} {xs : List α} {left right i : Nat}
    {hright : right ≤ xs.length} (h : searchLoop f xs left right hright = .ok i) :
    ∃ x, xs[i]? = some x ∧ f x = .eq := by
  fun_induction searchLoop f xs left right hright with
  | case1 left right hright hlt mid hmid hcmp ih => exact ih h
  | case2 left right hright hlt mid hmid hcmp ih => exact ih h
  | case3 left right hright hlt mid hmid hcmp =>
      have hi : i = mid := (Except.ok.inj h).symm
      rw [hi]
      exact ⟨xs[mid], List.getElem?_eq_getElem hmid, hcmp⟩
  | case4 left right hright hlt => cases h

/-- An `Ok(i)` points at an element that compares `Equal`, sorted or not. -/
theorem binarySearchBy_ok {f : α → Ordering} {xs : List α} {i : Nat}
    (h : binarySearchBy f xs = .ok i) : ∃ x, xs[i]? = some x ∧ f x = .eq :=
  @searchLoop_ok _ f xs 0 xs.length i _ h

/-! ## `Err` on a sorted list -/

section Sorted

variable [LinearOrder κ] (key : α → κ) (t : κ)

/-- Every element before `i` has a key below `t`, and every element from `j`
on a key above it. -/
def Brackets (xs : List α) (i j : Nat) : Prop :=
  (∀ k x, k < i → xs[k]? = some x → key x < t) ∧
    (∀ k x, j ≤ k → xs[k]? = some x → t < key x)

variable {key t}

theorem key_lt_of_pairwise {xs : List α} (hs : xs.Pairwise fun a b => key a < key b)
    {i j : Nat} {a b : α} (hij : i < j) (ha : xs[i]? = some a) (hb : xs[j]? = some b) :
    key a < key b := by
  obtain ⟨hi, rfl⟩ := List.getElem?_eq_some_iff.1 ha
  obtain ⟨hj, rfl⟩ := List.getElem?_eq_some_iff.1 hb
  exact List.pairwise_iff_getElem.1 hs i j hi hj hij

theorem key_le_of_pairwise {xs : List α} (hs : xs.Pairwise fun a b => key a < key b)
    {i j : Nat} {a b : α} (hij : i ≤ j) (ha : xs[i]? = some a) (hb : xs[j]? = some b) :
    key a ≤ key b := by
  rcases Nat.lt_or_eq_of_le hij with hlt | rfl
  · exact le_of_lt (key_lt_of_pairwise hs hlt ha hb)
  · rw [ha] at hb
    cases hb
    exact le_rfl

/-- A round that compares `Less` at `mid` moves the lower bracket past it. -/
theorem Brackets.of_lt {xs : List α} (hs : xs.Pairwise fun a b => key a < key b)
    {left right mid : Nat} (h : Brackets key t xs left right) (hmid : mid < xs.length)
    (hcmp : compare (key xs[mid]) t = .lt) : Brackets key t xs (mid + 1) right := by
  refine ⟨fun k x hk hx => ?_, h.2⟩
  have hle := key_le_of_pairwise hs (Nat.lt_succ_iff.1 hk) hx (List.getElem?_eq_getElem hmid)
  exact lt_of_le_of_lt hle (compare_lt_iff_lt.1 hcmp)

/-- A round that compares `Greater` at `mid` moves the upper bracket to it. -/
theorem Brackets.of_gt {xs : List α} (hs : xs.Pairwise fun a b => key a < key b)
    {left right mid : Nat} (h : Brackets key t xs left right) (hmid : mid < xs.length)
    (hcmp : compare (key xs[mid]) t = .gt) : Brackets key t xs left mid := by
  refine ⟨h.1, fun k x hk hx => ?_⟩
  have hle := key_le_of_pairwise hs hk (List.getElem?_eq_getElem hmid) hx
  exact lt_of_lt_of_le (compare_gt_iff_gt.1 hcmp) hle

theorem searchLoop_error {xs : List α} (hs : xs.Pairwise fun a b => key a < key b)
    {left right i : Nat} {hright : right ≤ xs.length} (hlr : left ≤ right)
    (hb : Brackets key t xs left right)
    (h : searchLoop (fun x => compare (key x) t) xs left right hright = .error i) :
    i ≤ xs.length ∧ Brackets key t xs i i := by
  fun_induction searchLoop (fun x => compare (key x) t) xs left right hright with
  | case1 left right hright hlt mid hmid hcmp ih =>
      exact ih (by omega) (hb.of_lt hs hmid hcmp) h
  | case2 left right hright hlt mid hmid hcmp ih =>
      exact ih (by omega) (hb.of_gt hs hmid hcmp) h
  | case3 left right hright hlt mid hmid hcmp => cases h
  | case4 left right hright hlt =>
      rw [← Except.error.inj h]
      have hleft : left = right := by omega
      subst hleft
      exact ⟨hright, hb⟩

/-- On a list whose keys strictly increase, `Err(i)` is the insertion
point. -/
theorem binarySearchBy_error {xs : List α} (hs : xs.Pairwise fun a b => key a < key b)
    {i : Nat} (h : binarySearchBy (fun x => compare (key x) t) xs = .error i) :
    i ≤ xs.length ∧ Brackets key t xs i i := by
  have hb : Brackets key t xs 0 xs.length := by
    refine ⟨fun k x hk _ => absurd hk (Nat.not_lt_zero k), fun k x hk hx => ?_⟩
    have hlt := (List.getElem?_eq_some_iff.1 hx).1
    omega
  exact @searchLoop_error _ _ _ key t xs hs 0 xs.length i _ (Nat.zero_le _) hb h

theorem Brackets.not_mem {xs : List α} {i : Nat} (h : Brackets key t xs i i) {x : α}
    (hx : x ∈ xs) : key x ≠ t := by
  obtain ⟨k, hk⟩ := List.mem_iff_getElem?.1 hx
  by_cases hki : k < i
  · exact ne_of_lt (h.1 k x hki hk)
  · exact ne_of_gt (h.2 k x (Nat.le_of_not_lt hki) hk)

/-- On a list whose keys strictly increase, a present key is found at the
index of its element. -/
theorem binarySearchBy_eq_ok_of_mem {xs : List α} (hs : xs.Pairwise fun a b => key a < key b)
    {x : α} (hx : x ∈ xs) (hkey : key x = t) :
    ∃ i, binarySearchBy (fun x => compare (key x) t) xs = .ok i ∧ xs[i]? = some x := by
  cases hres : binarySearchBy (fun x => compare (key x) t) xs with
  | error i => exact absurd hkey ((binarySearchBy_error hs hres).2.not_mem hx)
  | ok i =>
      obtain ⟨y, hy, hcmp⟩ := binarySearchBy_ok hres
      obtain ⟨k, hk⟩ := List.mem_iff_getElem?.1 hx
      have hky : key y = key x := by rw [hkey]; exact compare_eq_iff_eq.1 hcmp
      have hik : i = k := by
        by_contra hne
        rcases Nat.lt_or_gt_of_ne hne with hlt | hlt
        · exact absurd hky (ne_of_lt (key_lt_of_pairwise hs hlt hy hk))
        · exact absurd hky (ne_of_gt (key_lt_of_pairwise hs hlt hk hy))
      subst hik
      exact ⟨i, rfl, hk⟩

end Sorted

/-! ## Sorted insertion -/

/-- Inserting an element after everything it follows and before everything
it precedes keeps a list pairwise related. -/
theorem pairwise_insertIdx {R : α → α → Prop} :
    ∀ {xs : List α} {i : Nat} {e : α}, xs.Pairwise R → i ≤ xs.length →
      (∀ k x, k < i → xs[k]? = some x → R x e) → (∀ k x, i ≤ k → xs[k]? = some x → R e x) →
      (xs.insertIdx i e).Pairwise R
  | xs, 0, e, hs, _, _, hafter => by
      rw [List.insertIdx_zero, List.pairwise_cons]
      refine ⟨fun x hx => ?_, hs⟩
      obtain ⟨k, hk⟩ := List.mem_iff_getElem?.1 hx
      exact hafter k x (Nat.zero_le k) hk
  | [], _ + 1, _, _, hi, _, _ => absurd hi (by simp)
  | y :: ys, i + 1, e, hs, hi, hbefore, hafter => by
      rw [List.insertIdx_succ_cons, List.pairwise_cons]
      rw [List.pairwise_cons] at hs
      have hye : R y e := hbefore 0 y (Nat.succ_pos i) rfl
      refine ⟨fun x hx => ?_, pairwise_insertIdx hs.2 (by simpa using hi)
        (fun k x hk hx => hbefore (k + 1) x (by omega) hx)
        (fun k x hk hx => hafter (k + 1) x (by omega) hx)⟩
      rcases List.eq_or_mem_of_mem_insertIdx hx with rfl | hx
      · exact hye
      · exact hs.1 x hx

/-- Inserting at the insertion point a binary search reports keeps the keys
strictly increasing. -/
theorem pairwise_insertIdx_of_error [LinearOrder κ] {key : α → κ} {t : κ} {xs : List α}
    (hs : xs.Pairwise fun a b => key a < key b) {i : Nat}
    (h : binarySearchBy (fun x => compare (key x) t) xs = .error i) {e : α} (he : key e = t) :
    (xs.insertIdx i e).Pairwise fun a b => key a < key b := by
  obtain ⟨hi, hb⟩ := binarySearchBy_error hs h
  exact pairwise_insertIdx hs hi (fun k x hk hx => he ▸ hb.1 k x hk hx)
    (fun k x hk hx => he ▸ hb.2 k x hk hx)

/-! ## Finding past an insertion -/

section Find

variable {p : α → Bool}

/-- Inserting an element the predicate rejects leaves what `find?` finds. -/
theorem find?_insertIdx_of_not {x : α} (hx : p x = false) (l : List α) :
    ∀ i, (l.insertIdx i x).find? p = l.find? p := by
  induction l with
  | nil =>
      intro i
      cases i with
      | zero => simp [hx]
      | succ i => simp
  | cons y ys ih =>
      intro i
      cases i with
      | zero => rw [List.insertIdx_zero, List.find?_cons, hx]
      | succ i => rw [List.insertIdx_succ_cons, List.find?_cons, List.find?_cons, ih i]

/-- Replacing an element the predicate rejects by another it rejects leaves
what `find?` finds. -/
theorem find?_set_of_not {x : α} (hx : p x = false) (l : List α) :
    ∀ i, (∀ y, l[i]? = some y → p y = false) → (l.set i x).find? p = l.find? p := by
  induction l with
  | nil =>
      intro i _
      rfl
  | cons y ys ih =>
      intro i hy
      cases i with
      | zero =>
          have hy0 : p y = false := hy y rfl
          rw [List.set_cons_zero, List.find?_cons, List.find?_cons, hx, hy0]
      | succ i => rw [List.set_cons_succ, List.find?_cons, List.find?_cons, ih i hy]

end Find

end EdgeRuntime.Verified.SortedSearch
