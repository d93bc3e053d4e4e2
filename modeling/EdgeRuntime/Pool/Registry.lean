import EdgeRuntime.Verified.KeyedSet

/-!
# Active worker registries

`ActiveWorkerRegistry` (crates/base/src/rt_worker/worker_pool.rs) is the
round-robin table of the workers serving one service path.  Its `workers`
set holds `WorkerId(uuid, flag)` values compared by uuid only; the flag is
`true` when the worker may be handed out (always, under the per-worker
policy; only while idle, under the per-request policy).  `next` caches the
position the next hand-out starts from, `notify_pair` is the flume channel
the create requests parked in the wait fence listen on, and `sem` bounds the
number of workers created for the path.

The channel is modelled by the list of messages in flight and the number of
live receivers.  The registry keeps one receiver of its own for as long as
it exists, so a send never fails and every send appends to the list.
-/

namespace EdgeRuntime.Pool

open EdgeRuntime.Verified

/-- Worker keys are uuids; the pool only compares them. -/
abbrev Uuid := Nat

/-- `SupervisorPolicy`. -/
inductive SupervisorPolicy
  | perWorker
  | perRequest (oneshot : Bool)
  deriving DecidableEq, Repr

namespace SupervisorPolicy

/-- `is_per_worker` (generated by `EnumAsInner`). -/
def isPerWorker : SupervisorPolicy → Bool
  | perWorker => true
  | perRequest _ => false

/-- `is_per_request` (generated by `EnumAsInner`). -/
def isPerRequest : SupervisorPolicy → Bool
  | perWorker => false
  | perRequest _ => true

/-- `SupervisorPolicy::is_oneshot`. -/
def isOneshot : SupervisorPolicy → Bool
  | perRequest true => true
  | _ => false

end SupervisorPolicy

/-- `WorkerId(Uuid, bool)`: `Eq` and `Hash` look at the uuid only, which is
why a registry stores them in a set keyed by `WorkerId.key`. -/
structure WorkerId where
  key : Uuid
  mark : Bool
  deriving DecidableEq, Repr

/-- `ActiveWorkerRegistry`. -/
structure ActiveWorkerRegistry where
  workers : KeyedSet WorkerId.key
  next : Option Nat
  /-- Messages in flight on the `notify_pair` channel, oldest first. -/
  notify : List (Option Uuid)
  /-- Live receivers of `notify_pair`: the registry's own, and one per wait
  fence that still holds its clone. -/
  receivers : Nat
  /-- Permits left in `sem`. -/
  permits : Nat

namespace ActiveWorkerRegistry

/-- `ActiveWorkerRegistry::new`. -/
def new (maxParallelism : Nat) : ActiveWorkerRegistry where
  workers := KeyedSet.empty
  next := none
  notify := []
  receivers := 1
  permits := maxParallelism

/-- `notify_tx.send(msg)`: the registry's own receiver keeps the channel open. -/
def send (r : ActiveWorkerRegistry) (msg : Option Uuid) : ActiveWorkerRegistry :=
  { r with notify := r.notify ++ [msg] }

/-- The index `mark_used_and_try_advance` reads: the cached `next`, reset
to `0` once it has run past the end. -/
def advanceIndex (r : ActiveWorkerRegistry) : Nat :=
  (r.next.map fun it => if it + 1 > r.workers.items.length then 0 else it).getD 0

/-- `mark_used_and_try_advance`: the registry afterwards, and the key it
hands out. -/
def markUsedAndTryAdvance (r : ActiveWorkerRegistry) (policy : SupervisorPolicy) :
    ActiveWorkerRegistry × Option Uuid :=
  if r.workers.items.isEmpty then ({ r with next := none }, none)
  else
    match r.workers.items[r.advanceIndex]?, policy with
    | some ⟨key, true⟩, .perWorker =>
        ({ r with next := some (r.advanceIndex + 1) }, (r.workers.get? key).map WorkerId.key)
    | some ⟨key, true⟩, .perRequest _ =>
        -- `replace` hands back the old element; the key is read again from
        -- the updated set
        let workers := r.workers.replace ⟨key, false⟩
        ({ r with workers := workers, next := workers.items.findIdx? (·.mark) },
          (r.workers.get? key).bind fun _ => (workers.get? key).map WorkerId.key)
    | _, _ => ({ r with next := none }, none)

/-- `mark_idle`. -/
def markIdle (r : ActiveWorkerRegistry) (key : Uuid) (policy : SupervisorPolicy) :
    ActiveWorkerRegistry :=
  match r.workers.get? key with
  | none => r
  | some ⟨key, mark⟩ =>
      if policy.isPerRequest then
        if mark then r
        else ({ r with workers := r.workers.replace ⟨key, true⟩ }).send (some key)
      else r.send (some key)

/-! ## Neither method adds or removes workers -/

theorem keys_markUsedAndTryAdvance (r : ActiveWorkerRegistry) (policy : SupervisorPolicy) :
    (r.markUsedAndTryAdvance policy).1.workers.keys = r.workers.keys := by
  unfold markUsedAndTryAdvance
  split
  · rfl
  · split
    · rfl
    · rename_i key _ hget
      have hmem : key ∈ r.workers.keys := KeyedSet.key_mem_keys (List.mem_of_getElem? hget)
      exact KeyedSet.keys_replace hmem
    · rfl

theorem keys_markIdle (r : ActiveWorkerRegistry) (key : Uuid) (policy : SupervisorPolicy) :
    (r.markIdle key policy).workers.keys = r.workers.keys := by
  unfold markIdle
  split
  · rfl
  · rename_i key' mark hget
    have hmem : key' ∈ r.workers.keys :=
      KeyedSet.key_mem_keys (KeyedSet.get?_eq_some.1 hget).1
    split
    · split
      · rfl
      · exact KeyedSet.keys_replace hmem
    · rfl

/-! ## Which workers are flagged available -/

/-- The round-robin step only flags workers busy. -/
theorem mem_markUsedAndTryAdvance {r : ActiveWorkerRegistry} {policy : SupervisorPolicy}
    {w : WorkerId} (hw : w ∈ (r.markUsedAndTryAdvance policy).1.workers.items) :
    w ∈ r.workers.items ∨ w.mark = false := by
  unfold markUsedAndTryAdvance at hw
  split at hw
  · exact Or.inl hw
  · split at hw
    · exact Or.inl hw
    · rename_i key _ hget
      have hmem : key ∈ r.workers.keys := KeyedSet.key_mem_keys (List.mem_of_getElem? hget)
      rcases (KeyedSet.mem_replace hmem).1 hw with rfl | ⟨hw, -⟩
      · exact Or.inr rfl
      · exact Or.inl hw
    · exact Or.inl hw

/-- The round-robin step hands out a worker that was flagged available,
and under the per-request policy flags it busy. -/
theorem markUsedAndTryAdvance_eq_some {r : ActiveWorkerRegistry} {policy : SupervisorPolicy}
    {k : Uuid} (h : (r.markUsedAndTryAdvance policy).2 = some k) :
    ⟨k, true⟩ ∈ r.workers.items ∧
      (policy.isPerRequest = true →
        ⟨k, true⟩ ∉ (r.markUsedAndTryAdvance policy).1.workers.items) := by
  unfold markUsedAndTryAdvance at h ⊢
  split at h
  · cases h
  · rename_i hne
    rw [if_neg hne]
    split at h
    · rename_i key hget
      obtain ⟨w, hw, rfl⟩ := Option.map_eq_some_iff.1 h
      obtain ⟨-, hkey⟩ := KeyedSet.get?_eq_some.1 hw
      refine ⟨hkey ▸ List.mem_of_getElem? hget, fun hpol => ?_⟩
      simp [SupervisorPolicy.isPerRequest] at hpol
    · rename_i key oneshot hget
      obtain ⟨w, -, hw⟩ := Option.bind_eq_some_iff.1 h
      obtain ⟨w', hw', rfl⟩ := Option.map_eq_some_iff.1 hw
      obtain ⟨-, hkey⟩ := KeyedSet.get?_eq_some.1 hw'
      have hmem : key ∈ r.workers.keys := KeyedSet.key_mem_keys (List.mem_of_getElem? hget)
      refine ⟨hkey ▸ List.mem_of_getElem? hget, fun _ hw'' => ?_⟩
      rw [hkey] at hw''
      rcases (KeyedSet.mem_replace hmem).1 hw'' with he | ⟨-, hne'⟩
      · cases he
      · exact hne' rfl
    · cases h

/-- `mark_idle` flags only the worker it is given. -/
theorem mem_markIdle {r : ActiveWorkerRegistry} {key : Uuid} {policy : SupervisorPolicy}
    {w : WorkerId} (hw : w ∈ (r.markIdle key policy).workers.items) :
    w ∈ r.workers.items ∨ w.key = key := by
  unfold markIdle at hw
  split at hw
  · exact Or.inl hw
  · rename_i key' mark hget
    obtain ⟨hmem', hkey'⟩ := KeyedSet.get?_eq_some.1 hget
    split at hw
    · split at hw
      · exact Or.inl hw
      · have hmem : key' ∈ r.workers.keys := KeyedSet.key_mem_keys hmem'
        rcases (KeyedSet.mem_replace hmem).1 hw with rfl | ⟨hw, -⟩
        · exact Or.inr hkey'
        · exact Or.inl hw
    · exact Or.inl hw

end ActiveWorkerRegistry

end EdgeRuntime.Pool
