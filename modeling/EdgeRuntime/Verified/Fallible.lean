import Mathlib.Data.List.Basic

/-!
# Fallible computations

A function of the runtime that returns `Result<T, E>` is modelled as one that
returns `Except E T`, and `?` as `Except`'s bind.  This module supplies the
one rule every proof about such a function peels it apart with: a bind that
succeeds had a first computation that succeeded, and a continuation that
succeeded on its value.  It names nothing of the runtime.
-/

namespace EdgeRuntime.Verified.Fallible

variable {ε α β : Type}

theorem bind_eq_ok {x : Except ε α} {f : α → Except ε β} {b : β} :
    x >>= f = .ok b ↔ ∃ a, x = .ok a ∧ f a = .ok b := by
  cases x with
  | error e =>
      constructor
      · intro h
        cases h
      · rintro ⟨_, h, _⟩
        cases h
  | ok a =>
      constructor
      · intro h
        exact ⟨a, rfl, h⟩
      · rintro ⟨a', h, hf⟩
        cases h
        exact hf

theorem map_eq_ok {x : Except ε α} {f : α → β} {b : β} :
    x.map f = .ok b ↔ ∃ a, x = .ok a ∧ f a = b := by
  cases x with
  | error e =>
      constructor
      · intro h
        cases h
      · rintro ⟨_, h, _⟩
        cases h
  | ok a =>
      constructor
      · intro h
        exact ⟨a, rfl, Except.ok.inj h⟩
      · rintro ⟨a', h, rfl⟩
        cases h
        rfl

/-- A `mapM` whose function succeeds on every element returns the values. -/
theorem mapM_eq_ok {f : α → Except ε β} {g : α → β} :
    ∀ {l : List α}, (∀ a ∈ l, f a = .ok (g a)) → l.mapM f = .ok (l.map g)
  | [], _ => rfl
  | a :: rest, h => by
      rw [List.mapM_cons, h a List.mem_cons_self,
        mapM_eq_ok fun b hb => h b (List.mem_cons_of_mem _ hb)]
      rfl

end EdgeRuntime.Verified.Fallible
