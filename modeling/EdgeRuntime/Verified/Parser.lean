import EdgeRuntime.Verified.Fallible

/-!
# Readers that walk a buffer with a cursor

A decoder that keeps the buffer it reads fixed and moves an offset through
it, checking the bounds of every field before it slices the field out, is a
computation whose state is the offset: `Cursor ε α = StateT Nat (Except ε) α`,
written in `do` notation the way the code it models is written.  The buffer
is a parameter of the reads, not part of the state.

Three properties of such a computation, each with one rule per way of
building one (`bind`, `pure`, `throw`, `get`):

* `Advances`: on success the cursor has not moved back;
* `Progresses`: on success the cursor has moved forward; a loop whose body
  progresses and which runs while the cursor is below a bound ends, and
  `whileLt` is that loop, defined by well-founded recursion on the distance
  to the bound;
* `Avoids bad`: every error it fails with is not `bad`; a decoder whose
  reads check their bounds avoids the error of an out-of-range slice.

`Avoids.bind_of` is the rule for a continuation that is safe only on the
values the first computation can return: a field read as four bytes that is
then converted to a fixed-size array is the case it is for.

`Rest buf pos rest` says that what is left of the buffer from the cursor on
is `rest`; a read of a field is specified by what it does when `rest` starts
with the field, and the fact moves on to what follows the field
(`Rest.append`), so that the reads of a record chain.

This module names nothing of the runtime.
-/

namespace EdgeRuntime.Verified.Parsing

open EdgeRuntime.Verified.Fallible

/-- A computation over a fixed buffer whose state is the cursor. -/
abbrev Cursor (ε α : Type) := StateT Nat (Except ε) α

variable {ε σ α β : Type}

theorem run_bind_eq_ok {p : Cursor ε α} {f : α → Cursor ε β} {pos pos'' : Nat} {b : β}
    (h : (p >>= f).run pos = .ok (b, pos'')) :
    ∃ a pos', p.run pos = .ok (a, pos') ∧ (f a).run pos' = .ok (b, pos'') := by
  rw [StateT.run_bind] at h
  obtain ⟨⟨a, pos'⟩, hp, hf⟩ := bind_eq_ok.1 h
  exact ⟨a, pos', hp, hf⟩

theorem run_bind_eq_error {p : Cursor ε α} {f : α → Cursor ε β} {pos : Nat} {e : ε}
    (h : (p >>= f).run pos = .error e) :
    p.run pos = .error e ∨ ∃ a pos', p.run pos = .ok (a, pos') ∧ (f a).run pos' = .error e := by
  rw [StateT.run_bind] at h
  cases hp : p.run pos with
  | error e' =>
      rw [hp] at h
      cases h
      exact .inl rfl
  | ok r =>
      rw [hp] at h
      exact .inr ⟨r.1, r.2, rfl, h⟩

/-- A computation that returned `a` hands `a` to what follows it. -/
theorem run_bind_of_ok {p : Cursor ε α} {f : α → Cursor ε β} {pos pos' : Nat} {a : α}
    (hp : p.run pos = .ok (a, pos')) : (p >>= f).run pos = (f a).run pos' := by
  rw [StateT.run_bind, hp]
  rfl

/-! ## What is left of the buffer -/

section Rest

variable {τ : Type} {buf l rest : List τ} {pos : Nat}

/-- What is left of `buf` from the cursor `pos` on is `rest`. -/
def Rest (buf : List τ) (pos : Nat) (rest : List τ) : Prop :=
  pos + rest.length = buf.length ∧ buf.drop pos = rest

theorem rest_zero (buf : List τ) : Rest buf 0 buf := ⟨Nat.zero_add _, List.drop_zero⟩

/-- Past a field, what is left is what followed the field. -/
theorem Rest.append (h : Rest buf pos (l ++ rest)) : Rest buf (pos + l.length) rest := by
  obtain ⟨hlen, hdrop⟩ := h
  refine ⟨?_, ?_⟩
  · rw [List.length_append] at hlen
    omega
  · rw [← List.drop_drop, hdrop, List.drop_left]

/-- The field is the bytes at the cursor. -/
theorem Rest.take (h : Rest buf pos (l ++ rest)) : (buf.drop pos).take l.length = l := by
  rw [h.2, List.take_left]

theorem Rest.add_length_le (h : Rest buf pos (l ++ rest)) : pos + l.length ≤ buf.length := by
  have hlen := h.1
  rw [List.length_append] at hlen
  omega

theorem Rest.lt_of_ne_nil (h : Rest buf pos rest) (hne : rest ≠ []) : pos < buf.length := by
  have hpos : 0 < rest.length := List.length_pos_iff.2 hne
  have hlen := h.1
  omega

theorem Rest.eq_length (h : Rest buf pos []) : pos = buf.length := by
  have hlen := h.1
  rw [List.length_nil, Nat.add_zero] at hlen
  exact hlen

end Rest

/-! ## Moving the cursor -/

/-- On success the cursor has not moved back. -/
def Advances (p : Cursor ε α) : Prop :=
  ∀ pos a pos', p.run pos = .ok (a, pos') → pos ≤ pos'

/-- On success the cursor has moved forward. -/
def Progresses (p : Cursor ε α) : Prop :=
  ∀ pos a pos', p.run pos = .ok (a, pos') → pos < pos'

theorem Progresses.advances {p : Cursor ε α} (hp : Progresses p) : Advances p :=
  fun pos a pos' h => Nat.le_of_lt (hp pos a pos' h)

theorem Advances.bind {p : Cursor ε α} {f : α → Cursor ε β} (hp : Advances p)
    (hf : ∀ a, Advances (f a)) : Advances (p >>= f) := by
  intro pos b pos'' h
  obtain ⟨a, pos', hps, hfs⟩ := run_bind_eq_ok h
  exact Nat.le_trans (hp pos a pos' hps) (hf a pos' b pos'' hfs)

theorem Progresses.bind {p : Cursor ε α} {f : α → Cursor ε β} (hp : Progresses p)
    (hf : ∀ a, Advances (f a)) : Progresses (p >>= f) := by
  intro pos b pos'' h
  obtain ⟨a, pos', hps, hfs⟩ := run_bind_eq_ok h
  exact Nat.lt_of_lt_of_le (hp pos a pos' hps) (hf a pos' b pos'' hfs)

theorem advances_pure (a : α) : Advances (pure a : Cursor ε α) := by
  intro pos a' pos' h
  cases h
  exact Nat.le_refl _

theorem advances_throw (e : ε) : Advances (throw e : Cursor ε α) := by
  intro pos a pos' h
  cases h

theorem advances_get : Advances (get : Cursor ε Nat) := by
  intro pos a pos' h
  cases h
  exact Nat.le_refl _

/-! ## Avoiding an error -/

/-- Every error the computation fails with is not `bad`. -/
def Avoids (bad : ε → Prop) (p : Cursor ε α) : Prop :=
  ∀ pos e, p.run pos = .error e → ¬ bad e

variable {bad : ε → Prop}

theorem Avoids.bind {p : Cursor ε α} {f : α → Cursor ε β} (hp : Avoids bad p)
    (hf : ∀ a, Avoids bad (f a)) : Avoids bad (p >>= f) := by
  intro pos e h
  rcases run_bind_eq_error h with hps | ⟨a, pos', -, hfs⟩
  · exact hp pos e hps
  · exact hf a pos' e hfs

/-- The continuation need only avoid `bad` on what `p` can return. -/
theorem Avoids.bind_of {p : Cursor ε α} {f : α → Cursor ε β} (hp : Avoids bad p) (post : α → Prop)
    (hpost : ∀ pos a pos', p.run pos = .ok (a, pos') → post a)
    (hf : ∀ a, post a → Avoids bad (f a)) : Avoids bad (p >>= f) := by
  intro pos e h
  rcases run_bind_eq_error h with hps | ⟨a, pos', hps, hfs⟩
  · exact hp pos e hps
  · exact hf a (hpost pos a pos' hps) pos' e hfs

theorem avoids_pure (a : α) : Avoids bad (pure a : Cursor ε α) := by
  intro pos e h
  cases h

theorem avoids_throw {e : ε} (he : ¬ bad e) : Avoids bad (throw e : Cursor ε α) := by
  intro pos e' h
  cases h
  exact he

theorem avoids_get : Avoids bad (get : Cursor ε Nat) := by
  intro pos e h
  cases h

/-! ## The loop -/

set_option linter.unusedVariables false in
/-- `while pos < len { s = body(s)? }`: the body runs while the cursor is
below `len`, and the first error ends the loop. -/
def whileLt (len : Nat) (body : σ → Cursor ε σ) (hbody : ∀ s, Progresses (body s)) (s : σ)
    (pos : Nat) : Except ε (σ × Nat) :=
  if pos < len then
    match h : (body s).run pos with
    | .ok (s', pos') => whileLt len body hbody s' pos'
    | .error e => .error e
  else .ok (s, pos)
termination_by len - pos
decreasing_by
  have := hbody s pos s' pos' h
  omega

variable {len : Nat} {body : σ → Cursor ε σ} {hbody : ∀ s, Progresses (body s)}

theorem whileLt_done {s : σ} {pos : Nat} (h : ¬ pos < len) :
    whileLt len body hbody s pos = .ok (s, pos) := by
  rw [whileLt, if_neg h]

theorem whileLt_step {s s' : σ} {pos pos' : Nat} (hlt : pos < len)
    (hrun : (body s).run pos = .ok (s', pos')) :
    whileLt len body hbody s pos = whileLt len body hbody s' pos' := by
  rw [whileLt, if_pos hlt]
  split
  · rename_i s₁ pos₁ h
    rw [hrun] at h
    cases h
    rfl
  · rename_i e h
    rw [hrun] at h
    cases h

theorem whileLt_fail {s : σ} {pos : Nat} {e : ε} (hlt : pos < len)
    (hrun : (body s).run pos = .error e) :
    whileLt len body hbody s pos = .error e := by
  rw [whileLt, if_pos hlt]
  split
  · rename_i s₁ pos₁ h
    rw [hrun] at h
    cases h
  · rename_i e' h
    rw [hrun] at h
    cases h
    rfl

/-- A loop whose body avoids `bad` avoids it: by induction on the distance
from the cursor to the bound, one turn of the body at a time. -/
theorem whileLt_avoids (hsafe : ∀ s, Avoids bad (body s)) (s : σ) (pos : Nat) :
    ∀ e, whileLt len body hbody s pos = .error e → ¬ bad e := by
  induction s, pos using whileLt.induct len body hbody with
  | case1 s pos hlt s' pos' hrun ih =>
      rw [whileLt_step hlt hrun]
      exact ih
  | case2 s pos hlt e hrun =>
      intro e' h
      rw [whileLt_fail hlt hrun] at h
      cases h
      exact hsafe s pos e hrun
  | case3 s pos hge =>
      intro e h
      rw [whileLt_done hge] at h
      cases h

end EdgeRuntime.Verified.Parsing
