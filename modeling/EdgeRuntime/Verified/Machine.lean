import Mathlib.Data.List.Basic

/-!
# Labelled machines with partial steps

Every stateful component of the runtime is modelled the same way: a state
type, a type of labels (the messages a loop receives, or the operations a
caller performs), and a step function `σ → ε → Option σ`.  A step that
returns `none` is stuck: the code panicked (`expect`, `unreachable!`) or, for
a recursive method modelled with explicit fuel, the fuel bound was too small.

This module is the bottom of the package and names nothing of the runtime.
It supplies the run of a list of labels, reachability, and the one induction
every safety proof in the package goes through: an *inductive* invariant
(true initially, kept by every successful step) holds in every reachable
state.
-/

namespace EdgeRuntime.Verified.Machine

universe u v w

variable {σ : Type u} {ε : Type v}

/-- Run the labels left to right; stuck as soon as one step is stuck. -/
def exec (step : σ → ε → Option σ) : σ → List ε → Option σ
  | s, [] => some s
  | s, e :: es => (step s e).bind fun s' => exec step s' es

variable {step : σ → ε → Option σ}

@[simp] theorem exec_nil (s : σ) : exec step s [] = some s := rfl

@[simp] theorem exec_cons (s : σ) (e : ε) (es : List ε) :
    exec step s (e :: es) = (step s e).bind fun s' => exec step s' es := rfl

theorem exec_append (s : σ) (es fs : List ε) :
    exec step s (es ++ fs) = (exec step s es).bind fun s' => exec step s' fs := by
  induction es generalizing s with
  | nil => rfl
  | cons e es ih =>
      simp only [List.cons_append, exec_cons]
      cases step s e with
      | none => rfl
      | some s' => exact ih s'

/-- Running one more label is one more step. -/
theorem exec_concat (s : σ) (es : List ε) (e : ε) :
    exec step s (es ++ [e]) = (exec step s es).bind fun s' => step s' e := by
  rw [exec_append]
  cases exec step s es with
  | none => rfl
  | some s' =>
      show (step s' e).bind (fun s'' => some s'') = step s' e
      cases step s' e <;> rfl

/-- The run of the first `i + 1` labels is the run of the first `i` and one
more step. -/
theorem exec_take_succ {s : σ} {es : List ε} {i : Nat} {e : ε} (he : es[i]? = some e) :
    exec step s (es.take (i + 1)) = (exec step s (es.take i)).bind fun t => step t e := by
  rw [List.take_add_one, he, Option.toList_some, exec_concat]

/-- The run of the first `m + n` labels is the run of the first `m`, then of
the `n` after them. -/
theorem exec_take_add (s : σ) (es : List ε) (m n : Nat) :
    exec step s (es.take (m + n)) =
      (exec step s (es.take m)).bind fun t => exec step t ((es.drop m).take n) := by
  rw [List.take_add, exec_append]

/-- The labels of a window `[m, m + n)` of a run, by position. -/
theorem exists_of_mem_take_drop {es : List ε} {m n : Nat} {e : ε}
    (h : e ∈ (es.drop m).take n) : ∃ l, m ≤ l ∧ l < m + n ∧ es[l]? = some e := by
  obtain ⟨i, hi⟩ := List.mem_iff_getElem?.1 h
  rw [List.getElem?_take, List.getElem?_drop] at hi
  by_cases hin : i < n
  · rw [if_pos hin] at hi
    exact ⟨m + i, by omega, by omega, hi⟩
  · rw [if_neg hin] at hi
    cases hi

/-- The step on the labels the environment may produce in a state; the
others are stuck, so no run goes through them. -/
def guarded (ok : σ → ε → Bool) (step : σ → ε → Option σ) (s : σ) (e : ε) : Option σ :=
  if ok s e then step s e else none

theorem guarded_eq_some {ok : σ → ε → Bool} {s s' : σ} {e : ε}
    (h : guarded ok step s e = some s') : ok s e = true ∧ step s e = some s' := by
  unfold guarded at h
  split at h
  · rename_i hok
    exact ⟨hok, h⟩
  · cases h

/-- States some run from `init` ends in. -/
def Reachable (step : σ → ε → Option σ) (init s : σ) : Prop :=
  ∃ es, exec step init es = some s

/-- An invariant that holds initially and is kept by every successful step. -/
structure Inductive (step : σ → ε → Option σ) (init : σ) (I : σ → Prop) : Prop where
  init : I init
  step : ∀ s e s', I s → step s e = some s' → I s'

/-- The run rule for the runs whose labels all satisfy `P`: an invariant
kept by each such step is kept by each such run. -/
theorem exec_preserves_on {I : σ → Prop} {P : ε → Prop}
    (hstep : ∀ s e s', P e → I s → step s e = some s' → I s') :
    ∀ (es : List ε) (s s' : σ), (∀ e ∈ es, P e) → I s → exec step s es = some s' → I s'
  | [], s, s', _, hs, h => by
      simp only [exec_nil, Option.some.injEq] at h
      exact h ▸ hs
  | e :: es, s, s', hP, hs, h => by
      simp only [exec_cons, Option.bind_eq_some_iff] at h
      obtain ⟨t, hst, hrest⟩ := h
      have ht : I t := hstep s e t (hP e List.mem_cons_self) hs hst
      exact exec_preserves_on hstep es t s' (fun e' he' => hP e' (List.mem_cons_of_mem e he'))
        ht hrest

/-- The run rule with a record of the run beside the state: `g` folds each
label into the record, and an invariant of the state and the record kept by
each step is kept by each run. -/
theorem exec_preserves_record {γ : Type w} {I : σ → γ → Prop} (g : γ → ε → γ)
    (hstep : ∀ s x e s', I s x → step s e = some s' → I s' (g x e)) :
    ∀ (es : List ε) (s : σ) (x : γ) (s' : σ), I s x → exec step s es = some s' →
      I s' (es.foldl g x)
  | [], s, x, s', hs, h => by
      simp only [exec_nil, Option.some.injEq] at h
      exact h ▸ hs
  | e :: es, s, x, s', hs, h => by
      simp only [exec_cons, Option.bind_eq_some_iff] at h
      obtain ⟨t, hst, hrest⟩ := h
      exact exec_preserves_record g hstep es t (g x e) s' (hstep s x e t hs hst) hrest

/-- The same rule for a step that is never stuck, whose run is a fold. -/
theorem foldl_preserves_record {γ : Type w} {I : σ → γ → Prop} (f : σ → ε → σ) (g : γ → ε → γ)
    (hstep : ∀ s x e, I s x → I (f s e) (g x e)) :
    ∀ (es : List ε) (s : σ) (x : γ), I s x → I (es.foldl f s) (es.foldl g x)
  | [], _, _, hs => hs
  | e :: es, s, x, hs => foldl_preserves_record f g hstep es (f s e) (g x e) (hstep s x e hs)

/-- The run rule: an invariant kept by each step is kept by each run. -/
theorem exec_preserves {I : σ → Prop} (hstep : ∀ s e s', I s → step s e = some s' → I s')
    (es : List ε) (s s' : σ) (hs : I s) (h : exec step s es = some s') : I s' :=
  exec_preserves_on (P := fun _ => True) (fun s e s' _ => hstep s e s') es s s'
    (fun _ _ => trivial) hs h

/-- An inductive invariant holds in every reachable state. -/
theorem Inductive.reachable {init : σ} {I : σ → Prop} (hI : Inductive step init I)
    {s : σ} (hs : Reachable step init s) : I s := by
  obtain ⟨es, hes⟩ := hs
  exact exec_preserves hI.step es init s hI.init hes

end EdgeRuntime.Verified.Machine
