import EdgeRuntime.Pool.Registry
import EdgeRuntime.Verified.Machine
import Mathlib.Data.List.AList
import Mathlib.Logic.Relation

/-!
# The user worker pool

`WorkerPool` (crates/base/src/rt_worker/worker_pool.rs) owns two maps: the
profiles of the user workers by uuid, and the registries by service path.
Both are `HashMap`s and are modelled by `AList`s, whose keys are distinct by
construction; the pool never iterates over them.  The shared
`SharedMetricSource` counters are `AtomicUsize`s, modelled as `UInt64` so
that `fetch_sub` wraps as it does on the 64-bit targets.

A profile is reduced to the fields the pool reads or writes: its service
path, whether it still holds its semaphore permit, and the two atomics of
its `TimingStatus`.

`maybe_active_worker` calls itself after retiring a worker that was handed
out but has been retired by its supervisor.  The recursion is bounded only
because the retired worker leaves the registry, which needs the pool
invariant; the model therefore takes explicit fuel, and the pool loop
supplies the registry size plus one.  Running out of fuel, like a failed
`expect`, is a stuck step (`none`).
-/

namespace EdgeRuntime.Pool

open EdgeRuntime.Verified

/-- `UserWorkerProfile`, restricted to the fields the pool reads. -/
structure UserWorkerProfile where
  servicePath : String
  /-- `permit: Option<Arc<OwnedSemaphorePermit>>` is `Some`. -/
  permit : Bool
  /-- `status.demand`. -/
  demand : Nat
  /-- `status.is_retired`, raised by the worker's supervisor when it ends. -/
  isRetired : Bool
  deriving DecidableEq, Repr

/-- `WorkerPool`, with `WorkerPoolPolicy`'s two fields the pool reads. -/
structure WorkerPool where
  policy : SupervisorPolicy
  maxParallelism : Nat
  userWorkers : AList fun _ : Uuid => UserWorkerProfile
  activeWorkers : AList fun _ : String => ActiveWorkerRegistry
  /-- `metric_src.active_user_workers`. -/
  activeUserWorkers : UInt64
  /-- `metric_src.retired_user_workers`. -/
  retiredUserWorkers : UInt64

namespace WorkerPool

/-- `WorkerPool::new`, with a fresh `SharedMetricSource`. -/
def new (policy : SupervisorPolicy) (maxParallelism : Nat) : WorkerPool where
  policy := policy
  maxParallelism := maxParallelism
  userWorkers := ∅
  activeWorkers := ∅
  activeUserWorkers := 0
  retiredUserWorkers := 0

/-- The registry `active_workers.entry(sp).or_insert_with(..)` yields. -/
def registryOrNew (s : WorkerPool) (sp : String) : ActiveWorkerRegistry :=
  (s.activeWorkers.lookup sp).getD (ActiveWorkerRegistry.new s.maxParallelism)

/-- Store the registry of `sp`. -/
def setRegistry (s : WorkerPool) (sp : String) (r : ActiveWorkerRegistry) : WorkerPool :=
  { s with activeWorkers := s.activeWorkers.insert sp r }

/-- Store the profile of `key`. -/
def setProfile (s : WorkerPool) (key : Uuid) (p : UserWorkerProfile) : WorkerPool :=
  { s with userWorkers := s.userWorkers.insert key p }

/-- `add_user_worker`: the worker joins its path's registry, flagged
available only under the per-worker policy, and is counted. -/
def addUserWorker (s : WorkerPool) (key : Uuid) (profile : UserWorkerProfile) : WorkerPool :=
  let registry := s.registryOrNew profile.servicePath
  { s with
    activeWorkers := s.activeWorkers.insert profile.servicePath
      { registry with workers := registry.workers.insert ⟨key, s.policy.isPerWorker⟩ }
    userWorkers := s.userWorkers.insert key profile
    activeUserWorkers := s.activeUserWorkers + 1 }

/-- `idle`. -/
def idle (s : WorkerPool) (key : Uuid) : WorkerPool :=
  match s.userWorkers.lookup key with
  | none => s
  | some p =>
      match s.activeWorkers.lookup p.servicePath with
      | none => s
      | some r => s.setRegistry p.servicePath (r.markIdle key s.policy)

/-- `notify_tx.send(None)`, `n` times. -/
def sendNones (r : ActiveWorkerRegistry) (n : Nat) : ActiveWorkerRegistry :=
  { r with notify := r.notify ++ List.replicate n none }

/-- The registry as `retire` leaves it before the removal: the profile's
permit back in `sem`, and one `None` sent per live receiver. -/
def retireRegistry (r : ActiveWorkerRegistry) (p : UserWorkerProfile) : ActiveWorkerRegistry :=
  sendNones { r with permits := r.permits + if p.permit then 1 else 0 } r.receivers

/-- `retire`; `none` where `expect("registry must be initialized at this
point")` panics. -/
def retire (s : WorkerPool) (key : Uuid) : Option WorkerPool :=
  match s.userWorkers.lookup key with
  | none => some s
  | some p =>
      match s.activeWorkers.lookup p.servicePath with
      | none => none
      | some r =>
          if key ∈ r.workers.keys then
            some { (s.setProfile key { p with permit := false }).setRegistry p.servicePath
                { retireRegistry r p with workers := r.workers.remove key } with
              retiredUserWorkers := s.retiredUserWorkers + 1 }
          else
            some ((s.setProfile key { p with permit := false }).setRegistry p.servicePath
              (retireRegistry r p))

/-- The rest of `shutdown` once the worker is retired: forget the profile
and, when its path has a registry, wake one waiter and uncount it. -/
def shutdownRetired (s : WorkerPool) (key : Uuid) : WorkerPool :=
  match s.userWorkers.lookup key with
  | none => s
  | some p =>
      match s.activeWorkers.lookup p.servicePath with
      | none => { s with userWorkers := s.userWorkers.erase key }
      | some r =>
          { s.setRegistry p.servicePath (r.send none) with
            userWorkers := s.userWorkers.erase key
            activeUserWorkers := s.activeUserWorkers - 1 }

/-- `shutdown`. -/
def shutdown (s : WorkerPool) (key : Uuid) : Option WorkerPool :=
  (s.retire key).map fun s => s.shutdownRetired key

/-- The round-robin step of `maybe_active_worker`, which updates the
registry of `sp` in place. -/
def advance (s : WorkerPool) (sp : String) (r : ActiveWorkerRegistry) : WorkerPool × Option Uuid :=
  (s.setRegistry sp (r.markUsedAndTryAdvance s.policy).1, (r.markUsedAndTryAdvance s.policy).2)

/-- `maybe_active_worker`, with explicit fuel for its self-call. -/
def maybeActiveWorker : Nat → WorkerPool → String → Bool → Option (WorkerPool × Option Uuid)
  | 0, _, _, _ => none
  | fuel + 1, s, sp, forceCreate =>
      if forceCreate then some (s, none)
      else
        match s.activeWorkers.lookup sp with
        | none => some (s, none)
        | some r =>
            match s.advance sp r with
            | (s', none) => some (s', none)
            | (s', some uuid) =>
                match s'.userWorkers.lookup uuid with
                | some p =>
                    if !p.isRetired then
                      some (s'.setProfile uuid { p with demand := p.demand + 1 }, some uuid)
                    else (s'.retire uuid).bind fun s'' => maybeActiveWorker fuel s'' sp forceCreate
                | none => (s'.retire uuid).bind fun s'' => maybeActiveWorker fuel s'' sp forceCreate

/-- The fuel the pool loop gives `maybe_active_worker`: one call per worker
of the path, and one more. -/
def activeFuel (s : WorkerPool) (sp : String) : Nat :=
  ((s.activeWorkers.lookup sp).map fun r => r.workers.items.length).getD 0 + 1

/-- Before the wait fence is spawned: `entry(sp).or_insert_with(..)`, and the
receiver the fence clones. -/
def parkFence (s : WorkerPool) (sp : String) : WorkerPool :=
  s.setRegistry sp { s.registryOrNew sp with receivers := (s.registryOrNew sp).receivers + 1 }

/-- The synchronous part of `create_user_worker`: hand out an active worker,
or get the path's registry ready for the wait fence. -/
def createUserWorker (s : WorkerPool) (sp : String) (forceCreate : Bool) :
    Option (WorkerPool × Option Uuid) :=
  (maybeActiveWorker (s.activeFuel sp) s sp (!s.policy.isOneshot && forceCreate)).map fun res =>
    match res.2 with
    | some key => (res.1, some key)
    | none => (res.1.parkFence sp, none)

/-- The supervisor's scope guard raises the shared `is_retired` flag. -/
def raiseRetired (s : WorkerPool) (key : Uuid) : WorkerPool :=
  match s.userWorkers.lookup key with
  | none => s
  | some p => s.setProfile key { p with isRetired := true }

/-- A new iteration order of a registry's worker set. -/
def relayout (s : WorkerPool) (sp : String) (ws : List WorkerId) : WorkerPool :=
  match s.activeWorkers.lookup sp with
  | none => s
  | some r => s.setRegistry sp { r with workers := r.workers.relayout ws }

/-! ## The registries after an update -/

theorem lookup_setRegistry {s : WorkerPool} {sp sp' : String} {r : ActiveWorkerRegistry} :
    (s.setRegistry sp r).activeWorkers.lookup sp' =
      if sp' = sp then some r else s.activeWorkers.lookup sp' := by
  by_cases h : sp' = sp
  · subst h
    simp [setRegistry, AList.lookup_insert]
  · simp [setRegistry, AList.lookup_insert_ne h, h]

/-- `idle` of a worker with a profile whose path has a registry. -/
theorem idle_of_lookup {s : WorkerPool} {key : Uuid} {p : UserWorkerProfile}
    {r : ActiveWorkerRegistry} (hp : s.userWorkers.lookup key = some p)
    (hr : s.activeWorkers.lookup p.servicePath = some r) :
    s.idle key = s.setRegistry p.servicePath (r.markIdle key s.policy) := by
  simp only [idle, hp, hr]

/-- The workers of the registry `or_insert_with` yields are those of the
stored registry, if any. -/
theorem mem_registryOrNew {s : WorkerPool} {sp : String} {w : WorkerId}
    (hw : w ∈ (s.registryOrNew sp).workers.items) :
    ∃ r, s.activeWorkers.lookup sp = some r ∧ w ∈ r.workers.items := by
  unfold registryOrNew at hw
  cases hr : s.activeWorkers.lookup sp with
  | none =>
      rw [hr] at hw
      simp [ActiveWorkerRegistry.new, KeyedSet.empty] at hw
  | some r =>
      rw [hr] at hw
      exact ⟨r, rfl, hw⟩

/-! ## What a call of `maybe_active_worker` does -/

/-- One round of `maybe_active_worker` that gives up the worker it found: the
round-robin step hands out `uuid`, whose profile is retired or gone, and
`retire` takes it out. -/
def Skip (sp : String) (s s' : WorkerPool) : Prop :=
  ∃ r uuid, s.activeWorkers.lookup sp = some r ∧ (s.advance sp r).2 = some uuid ∧
    (∀ p, (s.advance sp r).1.userWorkers.lookup uuid = some p → p.isRetired = true) ∧
    (s.advance sp r).1.retire uuid = some s'

/-- The round a call of `maybe_active_worker` without `force_create` ends
with. -/
inductive LastRound (sp : String) (s : WorkerPool) : WorkerPool × Option Uuid → Prop
  /-- The path has no registry. -/
  | noRegistry : s.activeWorkers.lookup sp = none → LastRound sp s (s, none)
  /-- The round-robin step finds no available worker. -/
  | noWorker (r : ActiveWorkerRegistry) : s.activeWorkers.lookup sp = some r →
      (s.advance sp r).2 = none → LastRound sp s ((s.advance sp r).1, none)
  /-- The round-robin step hands out a live worker, whose demand goes up. -/
  | handOut (r : ActiveWorkerRegistry) (uuid : Uuid) (p : UserWorkerProfile) :
      s.activeWorkers.lookup sp = some r → (s.advance sp r).2 = some uuid →
      (s.advance sp r).1.userWorkers.lookup uuid = some p → p.isRetired = false →
      LastRound sp s ((s.advance sp r).1.setProfile uuid { p with demand := p.demand + 1 },
        some uuid)

/-- The inversion lemma of `maybe_active_worker`: with `force_create` it
returns at once, and otherwise it skips retired workers and ends with a
last round. -/
theorem maybeActiveWorker_cases :
    ∀ (fuel : Nat) {s : WorkerPool} {sp : String} {force : Bool}
      {res : WorkerPool × Option Uuid}, s.maybeActiveWorker fuel sp force = some res →
      (force = true ∧ res = (s, none)) ∨
        (force = false ∧ ∃ s1, Relation.ReflTransGen (Skip sp) s s1 ∧ LastRound sp s1 res)
  | 0, _, _, _, _, hs => by cases hs
  | fuel + 1, s, sp, force, res, hs => by
      unfold maybeActiveWorker at hs
      split at hs
      · rename_i hforce
        cases hs
        exact Or.inl ⟨hforce, rfl⟩
      · rename_i hforce
        have hf : force = false := by simpa using hforce
        refine Or.inr ⟨hf, ?_⟩
        split at hs
        · rename_i hr
          cases hs
          exact ⟨s, .refl, .noRegistry hr⟩
        · rename_i r hr
          split at hs
          · rename_i s1 heq
            cases hs
            have hlast := LastRound.noWorker r hr (by rw [heq])
            rw [heq] at hlast
            exact ⟨s, .refl, hlast⟩
          · rename_i s1 uuid heq
            have hskip : ∀ {s2}, (∀ p, s1.userWorkers.lookup uuid = some p → p.isRetired = true) →
                s1.retire uuid = some s2 → Skip sp s s2 := fun hret hs2 =>
              ⟨r, uuid, hr, by rw [heq], by rw [heq]; exact hret, by rw [heq]; exact hs2⟩
            have hrec : ∀ {s2}, s1.retire uuid = some s2 →
                (∀ p, s1.userWorkers.lookup uuid = some p → p.isRetired = true) →
                s2.maybeActiveWorker fuel sp force = some res →
                ∃ s3, Relation.ReflTransGen (Skip sp) s s3 ∧ LastRound sp s3 res :=
                fun hs2 hret hrest => by
              rcases maybeActiveWorker_cases fuel hrest with ⟨hf', -⟩ | ⟨-, s3, h23, hlast⟩
              · rw [hf] at hf'
                cases hf'
              · exact ⟨s3, Relation.ReflTransGen.head (hskip hret hs2) h23, hlast⟩
            split at hs
            · rename_i p hp
              split at hs
              · rename_i hlive
                cases hs
                have hlast := LastRound.handOut r uuid p hr (by rw [heq]) (by rw [heq]; exact hp)
                  (by simpa using hlive)
                rw [heq] at hlast
                exact ⟨s, .refl, hlast⟩
              · rename_i hret
                obtain ⟨s2, hs2, hrest⟩ := Option.bind_eq_some_iff.1 hs
                refine hrec hs2 (fun p' hp' => ?_) hrest
                rw [hp] at hp'
                cases hp'
                simpa using hret
            · rename_i hnone
              obtain ⟨s2, hs2, hrest⟩ := Option.bind_eq_some_iff.1 hs
              refine hrec hs2 (fun p' hp' => ?_) hrest
              rw [hnone] at hp'
              cases hp'

/-! ## Which workers have a profile -/

theorem mem_setProfile {s : WorkerPool} {key k : Uuid} {p : UserWorkerProfile} :
    k ∈ (s.setProfile key p).userWorkers ↔ k = key ∨ k ∈ s.userWorkers :=
  AList.mem_insert _

/-- Rewriting a profile that is there keeps the set of profiles. -/
theorem mem_setProfile_of_mem {s : WorkerPool} {key k : Uuid} {p : UserWorkerProfile}
    (hkey : key ∈ s.userWorkers) : k ∈ (s.setProfile key p).userWorkers ↔ k ∈ s.userWorkers := by
  rw [mem_setProfile]
  constructor
  · rintro (rfl | hk)
    · exact hkey
    · exact hk
  · exact Or.inr

theorem mem_of_lookup_eq_some {s : WorkerPool} {key : Uuid} {p : UserWorkerProfile}
    (hp : s.userWorkers.lookup key = some p) : key ∈ s.userWorkers :=
  AList.lookup_isSome.1 (Option.isSome_iff_exists.2 ⟨p, hp⟩)

theorem mem_userWorkers_retire {s s' : WorkerPool} {key k : Uuid} (hs : s.retire key = some s') :
    k ∈ s'.userWorkers ↔ k ∈ s.userWorkers := by
  unfold retire at hs
  split at hs
  · cases hs
    exact Iff.rfl
  · rename_i p hp
    split at hs
    · cases hs
    · split at hs <;>
      · cases hs
        exact mem_setProfile_of_mem (mem_of_lookup_eq_some hp)

theorem mem_userWorkers_skip {sp : String} {s s' : WorkerPool} (h : Skip sp s s') {k : Uuid} :
    k ∈ s'.userWorkers ↔ k ∈ s.userWorkers := by
  obtain ⟨r, uuid, -, -, -, hret⟩ := h
  have h1 := mem_userWorkers_retire (k := k) hret
  exact h1

theorem mem_userWorkers_skips {sp : String} {s s' : WorkerPool}
    (h : Relation.ReflTransGen (Skip sp) s s') {k : Uuid} :
    k ∈ s'.userWorkers ↔ k ∈ s.userWorkers := by
  induction h with
  | refl => exact Iff.rfl
  | tail _ hstep ih => exact (mem_userWorkers_skip hstep).trans ih

theorem mem_userWorkers_lastRound {sp : String} {s : WorkerPool} {res : WorkerPool × Option Uuid}
    (h : LastRound sp s res) {k : Uuid} : k ∈ res.1.userWorkers ↔ k ∈ s.userWorkers := by
  cases h with
  | noRegistry => exact Iff.rfl
  | noWorker => exact Iff.rfl
  | handOut r uuid p _ _ hp => exact mem_setProfile_of_mem (mem_of_lookup_eq_some hp)

theorem mem_userWorkers_maybeActiveWorker {fuel : Nat} {s s' : WorkerPool} {sp : String}
    {force : Bool} {o : Option Uuid} {k : Uuid}
    (hs : s.maybeActiveWorker fuel sp force = some (s', o)) :
    k ∈ s'.userWorkers ↔ k ∈ s.userWorkers := by
  rcases maybeActiveWorker_cases fuel hs with ⟨-, hres⟩ | ⟨-, s1, hskips, hlast⟩
  · cases hres
    exact Iff.rfl
  · exact (mem_userWorkers_lastRound hlast).trans (mem_userWorkers_skips hskips)

theorem mem_userWorkers_createUserWorker {s s' : WorkerPool} {sp : String} {force : Bool}
    {o : Option Uuid} {k : Uuid} (hs : s.createUserWorker sp force = some (s', o)) :
    k ∈ s'.userWorkers ↔ k ∈ s.userWorkers := by
  unfold createUserWorker at hs
  obtain ⟨⟨s1, o1⟩, hs1, hres⟩ := Option.map_eq_some_iff.1 hs
  have h1 := mem_userWorkers_maybeActiveWorker (k := k) hs1
  cases o1 with
  | some key =>
      cases hres
      exact h1
  | none =>
      cases hres
      exact h1

theorem mem_userWorkers_addUserWorker {s : WorkerPool} {key k : Uuid} {p : UserWorkerProfile} :
    k ∈ (s.addUserWorker key p).userWorkers ↔ k = key ∨ k ∈ s.userWorkers :=
  AList.mem_insert _

@[simp] theorem userWorkers_idle (s : WorkerPool) (key : Uuid) :
    (s.idle key).userWorkers = s.userWorkers := by
  unfold idle
  split
  · rfl
  · split <;> rfl

@[simp] theorem userWorkers_relayout (s : WorkerPool) (sp : String) (ws : List WorkerId) :
    (s.relayout sp ws).userWorkers = s.userWorkers := by
  unfold relayout
  split <;> rfl

theorem mem_userWorkers_raiseRetired {s : WorkerPool} {key k : Uuid} :
    k ∈ (s.raiseRetired key).userWorkers ↔ k ∈ s.userWorkers := by
  unfold raiseRetired
  split
  · exact Iff.rfl
  · rename_i p hp
    exact mem_setProfile_of_mem (mem_of_lookup_eq_some hp)

theorem mem_userWorkers_shutdown {s s' : WorkerPool} {key k : Uuid}
    (hs : s.shutdown key = some s') : k ∈ s'.userWorkers ↔ k ∈ s.userWorkers ∧ k ≠ key := by
  unfold shutdown at hs
  obtain ⟨s1, hs1, rfl⟩ := Option.map_eq_some_iff.1 hs
  rw [← mem_userWorkers_retire hs1]
  unfold shutdownRetired
  split
  · rename_i hnone
    have hkey : key ∉ s1.userWorkers := AList.lookup_eq_none.1 hnone
    exact ⟨fun hk => ⟨hk, fun he => hkey (he ▸ hk)⟩, fun h => h.1⟩
  · split <;> exact AList.mem_erase.trans and_comm

/-! ## The policy never changes -/

theorem policy_retire {s s' : WorkerPool} {key : Uuid} (hs : s.retire key = some s') :
    s'.policy = s.policy := by
  unfold retire at hs
  split at hs
  · cases hs
    rfl
  · split at hs
    · cases hs
    · split at hs <;>
      · cases hs
        rfl

theorem policy_skips {sp : String} {s s' : WorkerPool}
    (h : Relation.ReflTransGen (Skip sp) s s') : s'.policy = s.policy := by
  induction h with
  | refl => rfl
  | tail _ hstep ih =>
      obtain ⟨r, uuid, -, -, -, hret⟩ := hstep
      rw [policy_retire hret]
      exact ih

theorem policy_createUserWorker {s s' : WorkerPool} {sp : String} {force : Bool}
    {o : Option Uuid} (hs : s.createUserWorker sp force = some (s', o)) :
    s'.policy = s.policy := by
  unfold createUserWorker at hs
  obtain ⟨⟨s1, o1⟩, hs1, hres⟩ := Option.map_eq_some_iff.1 hs
  have h1 : s1.policy = s.policy := by
    rcases maybeActiveWorker_cases _ hs1 with ⟨-, hres1⟩ | ⟨-, s2, hskips, hlast⟩
    · cases hres1
      rfl
    · rw [← policy_skips hskips]
      cases hlast <;> rfl
  cases o1 with
  | some key =>
      cases hres
      exact h1
  | none =>
      cases hres
      exact h1

/-- A handed-out worker has a profile. -/
theorem mem_userWorkers_of_createUserWorker {s s' : WorkerPool} {sp : String} {force : Bool}
    {k : Uuid} (hs : s.createUserWorker sp force = some (s', some k)) : k ∈ s.userWorkers := by
  unfold createUserWorker at hs
  obtain ⟨⟨s1, o1⟩, hs1, hres⟩ := Option.map_eq_some_iff.1 hs
  cases o1 with
  | none => cases hres
  | some key =>
      cases hres
      rcases maybeActiveWorker_cases _ hs1 with ⟨-, hres1⟩ | ⟨-, s2, hskips, hlast⟩
      · cases hres1
      · cases hlast with
        | handOut r uuid p _ _ hp =>
            exact (mem_userWorkers_skips hskips).1 (mem_of_lookup_eq_some hp)

end WorkerPool

/-- What happens to the pool: the pool loop's handlers, the supervisor
raising `is_retired`, and the hash table changing its layout. -/
inductive PoolOp
  | create (servicePath : String) (forceCreate : Bool)
  | created (key : Uuid) (profile : UserWorkerProfile)
  | idle (key : Uuid)
  | shutdown (key : Uuid)
  | raiseRetired (key : Uuid)
  | relayout (servicePath : String) (workers : List WorkerId)

namespace WorkerPool

/-- One operation on the pool. -/
def step (s : WorkerPool) : PoolOp → Option WorkerPool
  | .create sp forceCreate => (s.createUserWorker sp forceCreate).map Prod.fst
  | .created key profile => some (s.addUserWorker key profile)
  | .idle key => some (s.idle key)
  | .shutdown key => s.shutdown key
  | .raiseRetired key => some (s.raiseRetired key)
  | .relayout sp ws => some (s.relayout sp ws)

/-- Only `shutdown` takes a profile away. -/
theorem mem_userWorkers_step {s s' : WorkerPool} {op : PoolOp} {k : Uuid}
    (hop : op ≠ .shutdown k) (hk : k ∈ s.userWorkers) (h : s.step op = some s') :
    k ∈ s'.userWorkers := by
  cases op with
  | create sp forceCreate =>
      obtain ⟨⟨s1, o⟩, h1, rfl⟩ := Option.map_eq_some_iff.1 h
      exact (mem_userWorkers_createUserWorker h1).2 hk
  | created key profile =>
      cases h
      exact mem_userWorkers_addUserWorker.2 (Or.inr hk)
  | idle key =>
      cases h
      rwa [userWorkers_idle]
  | shutdown key =>
      have hkey : k ≠ key := fun he => hop (he ▸ rfl)
      exact (mem_userWorkers_shutdown h).2 ⟨hk, hkey⟩
  | raiseRetired key =>
      cases h
      exact mem_userWorkers_raiseRetired.2 hk
  | relayout sp ws =>
      cases h
      rwa [userWorkers_relayout]

/-- Only `Created` adds a profile. -/
theorem mem_of_mem_userWorkers_step {s s' : WorkerPool} {op : PoolOp} {k : Uuid}
    (h : s.step op = some s') (hk : k ∈ s'.userWorkers) :
    k ∈ s.userWorkers ∨ ∃ p, op = .created k p := by
  cases op with
  | create sp forceCreate =>
      obtain ⟨⟨s1, o⟩, h1, rfl⟩ := Option.map_eq_some_iff.1 h
      exact Or.inl ((mem_userWorkers_createUserWorker h1).1 hk)
  | created key profile =>
      cases h
      rcases mem_userWorkers_addUserWorker.1 hk with rfl | hold
      · exact Or.inr ⟨profile, rfl⟩
      · exact Or.inl hold
  | idle key =>
      cases h
      exact Or.inl (by rwa [userWorkers_idle] at hk)
  | shutdown key => exact Or.inl ((mem_userWorkers_shutdown h).1 hk).1
  | raiseRetired key =>
      cases h
      exact Or.inl (mem_userWorkers_raiseRetired.1 hk)
  | relayout sp ws =>
      cases h
      exact Or.inl (by rwa [userWorkers_relayout] at hk)

theorem policy_step {s s' : WorkerPool} {op : PoolOp} (h : s.step op = some s') :
    s'.policy = s.policy := by
  cases op with
  | create sp forceCreate =>
      obtain ⟨⟨s1, o⟩, h1, rfl⟩ := Option.map_eq_some_iff.1 h
      exact policy_createUserWorker h1
  | created key profile =>
      cases h
      rfl
  | idle key =>
      cases h
      unfold idle
      split
      · rfl
      · split <;> rfl
  | shutdown key =>
      obtain ⟨s1, h1, rfl⟩ := Option.map_eq_some_iff.1 h
      rw [← policy_retire h1]
      unfold shutdownRetired
      split
      · rfl
      · split <;> rfl
  | raiseRetired key =>
      cases h
      unfold raiseRetired
      split <;> rfl
  | relayout sp ws =>
      cases h
      unfold relayout
      split <;> rfl

end WorkerPool

end EdgeRuntime.Pool
