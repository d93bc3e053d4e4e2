import EdgeRuntime.Pool.Exclusivity
import Mathlib.Data.List.Rotate

/-!
# The round-robin step of a registry

`ActiveWorkerRegistry::mark_used_and_try_advance`
(crates/base/src/rt_worker/worker_pool.rs) reads one entry of the worker
set: the one at the cached index `next`, taken back to `0` once it has run
past the end.  What it does then depends on the policy:

* under `PerWorker` every worker stays available; the step hands out the
  entry and moves `next` one further, so that calls in a row walk the set
  in iteration order, wrapping around;
* under `PerRequest` it flags the entry busy, hands it out, and points
  `next` at the first entry still flagged available.

Under `PerRequest`, `next` is set only by this function, while `mark_idle`
flags workers available elsewhere: the entry at `next` may be busy while
another entry is idle, and then the step hands out nothing.

## Main results

* `markUsedAndTryAdvance_round_robin`: under `PerWorker`, as many calls in
  a row as the set has workers hand out every worker once, whatever `next`
  was.
* `idle_resend_misses`: under `PerRequest`, in every reachable pool whose
  registry caches a busy entry, marking another busy worker idle wakes a
  parked request whose resend hands out nothing and parks again, although
  the worker it was woken for is available.
-/

namespace EdgeRuntime.Pool

open EdgeRuntime.Verified EdgeRuntime.Verified.Machine

namespace ActiveWorkerRegistry

/-- `n` calls of `mark_used_and_try_advance` in a row, with what each
returned. -/
def advanceRepeat (r : ActiveWorkerRegistry) (policy : SupervisorPolicy) :
    Nat → ActiveWorkerRegistry × List (Option Uuid)
  | 0 => (r, [])
  | n + 1 =>
      ((r.markUsedAndTryAdvance policy).1.advanceRepeat policy n).1 |>
        fun r' => (r', (r.markUsedAndTryAdvance policy).2 ::
          ((r.markUsedAndTryAdvance policy).1.advanceRepeat policy n).2)

theorem advanceIndex_lt {r : ActiveWorkerRegistry} (hne : r.workers.items ≠ []) :
    r.advanceIndex < r.workers.items.length := by
  have hpos : 0 < r.workers.items.length := List.length_pos_iff.2 hne
  unfold advanceIndex
  cases r.next with
  | none => exact hpos
  | some it =>
      show (if it + 1 > r.workers.items.length then 0 else it) < r.workers.items.length
      split <;> omega

/-- The key a set hands back for one of its elements is that element's. -/
theorem get?_map_key {r : ActiveWorkerRegistry} {w : WorkerId} (hw : w ∈ r.workers.items) :
    (r.workers.get? w.key).map WorkerId.key = some w.key := by
  rw [KeyedSet.get?_eq_some.2 ⟨hw, rfl⟩]
  rfl

/-! ## The per-worker policy -/

section PerWorker

variable {r : ActiveWorkerRegistry}

/-- Under `PerWorker`, a set of available workers hands out the entry at the
cached index and moves the index one further. -/
theorem markUsedAndTryAdvance_perWorker (hne : r.workers.items ≠ [])
    (hidle : ∀ w ∈ r.workers.items, w.mark = true) :
    r.markUsedAndTryAdvance .perWorker =
      ({ r with next := some (r.advanceIndex + 1) }, r.workers.keys[r.advanceIndex]?) := by
  have hlt := advanceIndex_lt hne
  have hmem : r.workers.items[r.advanceIndex] ∈ r.workers.items := List.getElem_mem hlt
  have hentry : r.workers.items[r.advanceIndex]? =
      some ⟨r.workers.items[r.advanceIndex].key, true⟩ := by
    rw [List.getElem?_eq_getElem hlt, ← hidle _ hmem]
  have hkey : r.workers.keys[r.advanceIndex]? = some r.workers.items[r.advanceIndex].key := by
    simp [KeyedSet.keys, hlt]
  unfold markUsedAndTryAdvance
  rw [if_neg (by simpa using hne), hentry, hkey]
  dsimp only
  rw [get?_map_key hmem]

/-- After a per-worker step, the index has moved one further round the
set. -/
theorem advanceIndex_succ (hne : r.workers.items ≠ []) :
    ({ r with next := some (r.advanceIndex + 1) } : ActiveWorkerRegistry).advanceIndex =
      (r.advanceIndex + 1) % r.workers.items.length := by
  have hlt := advanceIndex_lt hne
  show (if r.advanceIndex + 1 + 1 > r.workers.items.length then 0 else r.advanceIndex + 1) = _
  split
  · rw [show r.advanceIndex + 1 = r.workers.items.length by omega, Nat.mod_self]
  · rw [Nat.mod_eq_of_lt (by omega)]

/-- Calls in a row under `PerWorker` walk the keys in iteration order from
the cached index, wrapping around. -/
theorem advanceRepeat_perWorker (m : Nat) :
    ∀ r : ActiveWorkerRegistry, r.workers.items ≠ [] → (∀ w ∈ r.workers.items, w.mark = true) →
      (r.advanceRepeat .perWorker m).2 =
        (List.range m).map fun j => r.workers.keys[(r.advanceIndex + j) % r.workers.items.length]? := by
  induction m with
  | zero => intro r _ _; rfl
  | succ m ih =>
      intro r hne hidle
      have hstep := markUsedAndTryAdvance_perWorker hne hidle
      have htail := ih { r with next := some (r.advanceIndex + 1) } hne hidle
      rw [advanceIndex_succ hne] at htail
      simp only [advanceRepeat, hstep, htail, List.range_succ_eq_map, List.map_cons, List.map_map,
        Nat.add_zero, Nat.mod_eq_of_lt (advanceIndex_lt hne)]
      congr 2
      funext j
      have hwrap : ((r.advanceIndex + 1) % r.workers.items.length + j) % r.workers.items.length =
          (r.advanceIndex + (j + 1)) % r.workers.items.length := by
        rw [Nat.mod_add_mod, Nat.add_assoc, Nat.add_comm 1 j]
      simp only [Function.comp_apply, hwrap]

theorem markUsedAndTryAdvance_round_robin (r : ActiveWorkerRegistry) (hne : r.workers.items ≠ [])
    (hidle : ∀ w ∈ r.workers.items, w.mark = true) :
    ∃ ks : List Uuid, (r.advanceRepeat .perWorker r.workers.items.length).2 = ks.map some ∧
      ks.Perm r.workers.keys := by
  have hlen : r.workers.keys.length = r.workers.items.length := List.length_map _
  refine ⟨r.workers.keys.rotate r.advanceIndex, ?_, List.rotate_perm _ _⟩
  rw [advanceRepeat_perWorker _ r hne hidle]
  apply List.ext_getElem
  · simp [hlen]
  · intro j hj _
    have hj' : j < r.workers.items.length := by simpa using hj
    simp only [List.getElem_map, List.getElem_range, List.getElem_rotate, hlen]
    rw [List.getElem?_eq_getElem (by rw [hlen]; exact Nat.mod_lt _ (by omega)), Nat.add_comm j]

/-- Three available workers with a stale index `7`: three calls hand out
`1`, `2`, `3`. -/
theorem markUsedAndTryAdvance_round_robin_three :
    ∃ ks : List Uuid, (advanceRepeat ⟨⟨[⟨1, true⟩, ⟨2, true⟩, ⟨3, true⟩], by decide⟩, some 7, [], 1, 1⟩
        .perWorker 3).2 = ks.map some ∧ ks.Perm [1, 2, 3] :=
  markUsedAndTryAdvance_round_robin ⟨⟨[⟨1, true⟩, ⟨2, true⟩, ⟨3, true⟩], by decide⟩, some 7, [], 1, 1⟩
    (by decide) (by decide)

end PerWorker

/-! ## The per-request policy -/

variable {r : ActiveWorkerRegistry}

/-- A busy entry at the cached index: the step hands out nothing, whatever
the other entries hold, and forgets the cached index. -/
theorem markUsedAndTryAdvance_of_busy (policy : SupervisorPolicy) {j : Uuid}
    (hj : r.workers.items[r.advanceIndex]? = some ⟨j, false⟩) :
    r.markUsedAndTryAdvance policy = ({ r with next := none }, none) := by
  unfold markUsedAndTryAdvance
  split
  · rfl
  · rw [hj]

/-- `mark_idle` of a busy worker under `PerRequest` flags it available and
sends its key; it leaves `next` alone. -/
theorem markIdle_of_busy (oneshot : Bool) {k : Uuid} (hk : ⟨k, false⟩ ∈ r.workers.items) :
    r.markIdle k (.perRequest oneshot) =
      ({ r with workers := r.workers.replace ⟨k, true⟩ }).send (some k) := by
  unfold markIdle
  rw [KeyedSet.get?_eq_some.2 ⟨hk, rfl⟩]
  rfl

/-- Flagging another worker available leaves the cached index and the entry
at it. -/
theorem cachedEntry_replace {j k : Uuid} {b : Bool} (hk : k ∈ r.workers.keys)
    (hj : r.workers.items[r.advanceIndex]? = some ⟨j, b⟩) (hjk : j ≠ k) :
    (r.workers.replace ⟨k, true⟩).items[r.advanceIndex]? = some ⟨j, b⟩ ∧
      ({ r with workers := r.workers.replace ⟨k, true⟩ } : ActiveWorkerRegistry).advanceIndex =
        r.advanceIndex := by
  constructor
  · rw [KeyedSet.getElem?_replace hk, hj, Option.map_some, if_neg hjk]
  · unfold advanceIndex
    dsimp only
    rw [KeyedSet.length_replace (a := (⟨k, true⟩ : WorkerId)) hk]

end ActiveWorkerRegistry

open WorkerPool ActiveWorkerRegistry

/-- The resend after `mark_idle` in a per-request pool.  In every state the
pool reaches, take a registry whose cached index holds a busy worker `j`,
and another busy worker `k` of it.  `idle k` flags `k` available and sends
`Some(k)`, which wakes a parked create request into a resend; but the
round-robin step still reads the busy `j` at the unchanged index and hands
out nothing although `k` is available, so the resend of `create_user_worker`
parks at the wait fence again, with `k` still flagged available. -/
theorem idle_resend_misses (oneshot : Bool) (maxParallelism : Nat) (ops : List PoolOp)
    (s : WorkerPool)
    (hrun : exec (guarded FreshCreated step) (new (.perRequest oneshot) maxParallelism) ops = some s)
    (sp : String) (r : ActiveWorkerRegistry) (hr : s.activeWorkers.lookup sp = some r)
    (j k : Uuid) (hj : r.workers.items[r.advanceIndex]? = some ⟨j, false⟩)
    (hk : ⟨k, false⟩ ∈ r.workers.items) (hjk : j ≠ k) :
    ∃ r', (s.idle k).activeWorkers.lookup sp = some r' ∧ ⟨k, true⟩ ∈ r'.workers.items ∧
      r'.notify = r.notify ++ [some k] ∧
      r'.markUsedAndTryAdvance (.perRequest oneshot) = ({ r' with next := none }, none) ∧
      (s.idle k).createUserWorker sp false =
        some ((((s.idle k).setRegistry sp { r' with next := none }).parkFence sp), none) := by
  have hstate := perRequestState_of_exec hrun
  have hmem : k ∈ r.workers.keys := KeyedSet.key_mem_keys hk
  -- `k` is registered under `sp`, so `idle k` updates this registry
  obtain ⟨p, hp, hpsp⟩ := Option.map_eq_some_iff.1
    (hstate.consistent.registered sp k ⟨r, hr, hmem⟩)
  set r' := ({ r with workers := r.workers.replace ⟨k, true⟩ } : ActiveWorkerRegistry).send
    (some k) with hr'
  have hidle : s.idle k = s.setRegistry sp r' := by
    have h := idle_of_lookup hp (hpsp ▸ hr)
    rwa [hstate.policy, markIdle_of_busy oneshot hk, hpsp] at h
  have hlookup : (s.idle k).activeWorkers.lookup sp = some r' := by
    rw [hidle, lookup_setRegistry, if_pos rfl]
  obtain ⟨hentry, hindex⟩ := cachedEntry_replace hmem hj hjk
  have hbusy : r'.workers.items[r'.advanceIndex]? = some ⟨j, false⟩ := by
    rw [← hentry, ← hindex]
    rfl
  have hstep := markUsedAndTryAdvance_of_busy (.perRequest oneshot) hbusy
  have hpol : (s.idle k).policy = .perRequest oneshot := by
    rw [hidle, ← hstate.policy]
    rfl
  refine ⟨r', hlookup, (KeyedSet.mem_replace hmem).2 (.inl rfl), rfl, hstep, ?_⟩
  have hadvance : (s.idle k).advance sp r' =
      ((s.idle k).setRegistry sp { r' with next := none }, none) := by
    rw [advance, hpol, hstep]
  simp only [createUserWorker, activeFuel, hpol, SupervisorPolicy.isOneshot, Bool.and_false,
    maybeActiveWorker, hlookup, hadvance, Option.map_some]
  rfl

/-- A per-request pool that creates workers `1` and `2` for one path: both
are busy, and the cached index reads `1`.  Marking `2` idle wakes a parked
request, whose resend still reads `1` and parks again. -/
theorem idle_resend_misses_two :
    ∃ s r, exec (guarded FreshCreated step) (new (.perRequest false) 2)
        [.created 1 ⟨"functions/hello", true, 0, false⟩,
         .created 2 ⟨"functions/hello", true, 0, false⟩] = some s ∧
      s.activeWorkers.lookup "functions/hello" = some r ∧
      ∃ r', (s.idle 2).activeWorkers.lookup "functions/hello" = some r' ∧
        ⟨2, true⟩ ∈ r'.workers.items ∧ r'.notify = r.notify ++ [some 2] ∧
        r'.markUsedAndTryAdvance (.perRequest false) = ({ r' with next := none }, none) ∧
        (s.idle 2).createUserWorker "functions/hello" false =
          some ((((s.idle 2).setRegistry "functions/hello" { r' with next := none }).parkFence
            "functions/hello"), none) :=
  ⟨_, _, rfl, rfl, idle_resend_misses false 2
    [.created 1 ⟨"functions/hello", true, 0, false⟩, .created 2 ⟨"functions/hello", true, 0, false⟩]
    _ rfl "functions/hello" _ rfl 1 2 rfl (by decide) (by decide)⟩

end EdgeRuntime.Pool
