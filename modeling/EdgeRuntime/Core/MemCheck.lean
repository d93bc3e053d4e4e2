import Mathlib

/-!
# The memory check of a user worker

`DenoRuntime::new` (crates/base/src/deno_runtime.rs) gives a user worker's
runtime a `MemCheck` with the worker's memory limit.  `MemCheck::check` runs
before each garbage collection and after each poll of the event loop: it
adds the isolate's used heap, its external memory and, when
`SHOULD_INCLUDE_MALLOCED_MEMORY_ON_MEMCHECK` is set, its malloced memory,
each addition saturating at `usize::MAX`, and records the heap statistics in
the shared `MemCheckState` until a total reaches the limit.  The check that
reaches it marks the state exceeded and cancels `exceeded_token`, which
`add_memory_limit_callback` waits on to hand the state to its callback; from
then on the state is frozen.

A `usize` is a `UInt64`.  Of the heap statistics, the model keeps the three
sizes the check adds; the state records them as the check reads them.

## Main results

* `checks_new`: over any run of checks, the state records the statistics of
  the first check whose sizes, added without overflow, reach the limit, or
  of the last check when none does; it is exceeded, and the token cancelled,
  exactly when one does.  Saturation never hides a total past the limit.
-/

namespace EdgeRuntime.Core

/-- `usize::saturating_add`. -/
def saturatingAdd (a b : UInt64) : UInt64 :=
  if a.toNat + b.toNat < UInt64.size then a + b else UInt64.ofNat (UInt64.size - 1)

theorem toNat_saturatingAdd (a b : UInt64) :
    (saturatingAdd a b).toNat = min (a.toNat + b.toNat) (UInt64.size - 1) := by
  unfold saturatingAdd
  split
  · rename_i h
    rw [UInt64.toNat_add, Nat.mod_eq_of_lt h]
    omega
  · rw [UInt64.toNat_ofNat_of_lt' (by decide)]
    omega

/-- `WorkerHeapStatistics`, with the sizes `MemCheck::check` adds. -/
structure HeapStatistics where
  usedHeapSize : UInt64
  mallocedMemory : UInt64
  externalMemory : UInt64
  deriving DecidableEq, Repr, Inhabited

/-- The bytes the check counts, added without overflow. -/
def HeapStatistics.bytes (includeMalloced : Bool) (s : HeapStatistics) : Nat :=
  (if includeMalloced then s.mallocedMemory.toNat else 0) + s.usedHeapSize.toNat +
    s.externalMemory.toNat

/-- `total_bytes` of `MemCheck::check`. -/
def totalBytes (includeMalloced : Bool) (s : HeapStatistics) : UInt64 :=
  saturatingAdd (saturatingAdd (if includeMalloced then s.mallocedMemory else 0) s.usedHeapSize)
    s.externalMemory

theorem toNat_totalBytes (includeMalloced : Bool) (s : HeapStatistics) :
    (totalBytes includeMalloced s).toNat = min (s.bytes includeMalloced) (UInt64.size - 1) := by
  have hmalloc : (if includeMalloced then s.mallocedMemory else 0).toNat =
      if includeMalloced then s.mallocedMemory.toNat else 0 := by
    split <;> rfl
  rw [totalBytes, toNat_saturatingAdd, toNat_saturatingAdd, hmalloc, HeapStatistics.bytes]
  omega

/-- A limit is reached by the saturated total just when it is reached by the
bytes themselves: a limit is a `usize`, at most the saturation bound. -/
theorem le_totalBytes_iff (limit : UInt64) (includeMalloced : Bool) (s : HeapStatistics) :
    limit ≤ totalBytes includeMalloced s ↔ limit.toNat ≤ s.bytes includeMalloced := by
  have hlimit : limit.toNat < UInt64.size := limit.toNat_lt
  rw [UInt64.le_iff_toNat_le, toNat_totalBytes]
  omega

/-- Past `usize::MAX`, the total saturates where a wrapping sum would have
come back to `0`. -/
example : totalBytes false ⟨UInt64.ofNat (2 ^ 64 - 1), 0, 1⟩ = UInt64.ofNat (2 ^ 64 - 1) := by
  decide

/-- `MemCheckState`. -/
structure MemCheckState where
  current : HeapStatistics
  exceeded : Bool
  deriving DecidableEq, Repr

/-- `MemCheck`: the limit, whether malloced memory counts, the shared state,
and whether `exceeded_token` is cancelled. -/
structure MemCheck where
  limit : Option UInt64
  includeMalloced : Bool
  state : MemCheckState
  cancelled : Bool
  deriving DecidableEq, Repr

namespace MemCheck

/-- `MemCheck::default`, with the limit `DenoRuntime::new` sets. -/
def new (limit : Option UInt64) (includeMalloced : Bool) : MemCheck :=
  ⟨limit, includeMalloced, ⟨default, false⟩, false⟩

/-- `MemCheck::check` on the heap statistics the isolate reports: the check
afterwards, and the total it returns. -/
def check (m : MemCheck) (stats : HeapStatistics) : MemCheck × UInt64 :=
  match m.limit with
  | none => (m, 0)
  | some limit =>
      let total := totalBytes m.includeMalloced stats
      if m.state.exceeded then (m, total)
      else if limit ≤ total then ({ m with state := ⟨stats, true⟩, cancelled := true }, total)
      else ({ m with state := { m.state with current := stats } }, total)

/-- The checks of a run, one for each report. -/
def checks (m : MemCheck) (reports : List HeapStatistics) : MemCheck :=
  reports.foldl (fun m stats => (m.check stats).1) m

/-- The abstract test: the bytes of a report reach the limit. -/
def Reaches (limit : UInt64) (includeMalloced : Bool) (s : HeapStatistics) : Bool :=
  decide (limit.toNat ≤ s.bytes includeMalloced)

variable {m : MemCheck} {limit : UInt64}

theorem check_of_exceeded (hm : m.state.exceeded = true) (stats : HeapStatistics) :
    (m.check stats).1 = m := by
  unfold check
  split
  · rfl
  · simp [hm]

/-- A check before the limit is reached records the report, and marks the
state exceeded and cancels the token when the report reaches the limit. -/
theorem check_of_not_exceeded (hl : m.limit = some limit) (hm : m.state.exceeded = false)
    (stats : HeapStatistics) :
    (m.check stats).1 =
      { m with state := ⟨stats, Reaches limit m.includeMalloced stats⟩,
               cancelled := m.cancelled || Reaches limit m.includeMalloced stats } := by
  unfold check
  rw [hl]
  simp only [hm, Bool.false_eq_true, if_false]
  by_cases hr : Reaches limit m.includeMalloced stats = true
  · have hle : limit ≤ totalBytes m.includeMalloced stats :=
      (le_totalBytes_iff _ _ _).2 (of_decide_eq_true hr)
    rw [if_pos hle, hr, Bool.or_true]
  · have hnot : ¬limit ≤ totalBytes m.includeMalloced stats := fun hle =>
      hr (decide_eq_true ((le_totalBytes_iff _ _ _).1 hle))
    rw [if_neg hnot, Bool.eq_false_iff.2 hr, Bool.or_false]

/-- Checking never changes the limit or whether malloced memory counts. -/
theorem check_config (m : MemCheck) (stats : HeapStatistics) :
    (m.check stats).1.limit = m.limit ∧
      (m.check stats).1.includeMalloced = m.includeMalloced := by
  unfold check
  split
  · exact ⟨rfl, rfl⟩
  · dsimp only
    split
    · exact ⟨rfl, rfl⟩
    · split <;> exact ⟨rfl, rfl⟩

/-- Once exceeded, the state is frozen for the rest of the run. -/
theorem checks_of_exceeded (hm : m.state.exceeded = true) :
    ∀ reports : List HeapStatistics, m.checks reports = m
  | [] => rfl
  | stats :: rest => by
      show (m.check stats).1.checks rest = m
      rw [check_of_exceeded hm]
      exact checks_of_exceeded hm rest

/-- A run of checks from a state not yet exceeded, with the token not
cancelled: the state records the first report that reaches the limit, or
the last report, and is exceeded, with the token cancelled, just when one
report reaches it. -/
theorem checks_of_not_exceeded (hl : m.limit = some limit) (hm : m.state.exceeded = false)
    (hc : m.cancelled = false) (reports : List HeapStatistics) :
    (m.checks reports).state =
        ⟨(reports.find? (Reaches limit m.includeMalloced)).getD
            (reports.getLast?.getD m.state.current),
          reports.any (Reaches limit m.includeMalloced)⟩ ∧
      (m.checks reports).cancelled = reports.any (Reaches limit m.includeMalloced) := by
  induction reports generalizing m with
  | nil => exact ⟨by simp [checks, ← hm], by simp [checks, hc]⟩
  | cons stats rest ih =>
      have hstep := check_of_not_exceeded hl hm stats
      have hrun : m.checks (stats :: rest) = (m.check stats).1.checks rest := rfl
      by_cases hr : Reaches limit m.includeMalloced stats = true
      · -- the first report to reach the limit: the state is frozen after it
        have hexc : (m.check stats).1.state.exceeded = true := by simp [hstep, hr]
        rw [hrun, checks_of_exceeded hexc, hstep]
        simp [hr, List.find?_cons_of_pos]
      · -- a report below the limit: recorded, and the run goes on
        have hr' : Reaches limit m.includeMalloced stats = false := Bool.eq_false_iff.2 hr
        have hl' : (m.check stats).1.limit = some limit := (check_config m stats).1.trans hl
        have hm' : (m.check stats).1.state.exceeded = false := by simp [hstep, hr']
        have hc' : (m.check stats).1.cancelled = false := by simp [hstep, hr', hc]
        have hincl : (m.check stats).1.includeMalloced = m.includeMalloced := (check_config m stats).2
        obtain ⟨hstate, hcancel⟩ := ih hl' hm' hc'
        rw [hincl] at hstate hcancel
        rw [hrun, hstate, hcancel]
        refine ⟨?_, by simp [hr']⟩
        have hcur : (m.check stats).1.state.current = stats := by simp [hstep]
        cases rest with
        | nil => simp [hr', hcur]
        | cons s rest' => simp [hr', List.getLast?_cons]

/-- Over any run of checks of a user worker with a limit, the state records
the statistics of the first check whose bytes, added without overflow,
reach the limit, or of the last check when none does; it is exceeded, and
`exceeded_token` cancelled, exactly when one does. -/
theorem checks_new (limit : UInt64) (includeMalloced : Bool) (reports : List HeapStatistics) :
    ((new (some limit) includeMalloced).checks reports).state =
        ⟨(reports.find? (Reaches limit includeMalloced)).getD (reports.getLast?.getD default),
          reports.any (Reaches limit includeMalloced)⟩ ∧
      ((new (some limit) includeMalloced).checks reports).cancelled =
        reports.any (Reaches limit includeMalloced) :=
  checks_of_not_exceeded rfl rfl rfl reports

end MemCheck

end EdgeRuntime.Core
