import EdgeRuntime.Pool.Consistency

/-!
# Handing out an active worker

`WorkerPool::maybe_active_worker` (crates/base/src/rt_worker/worker_pool.rs)
asks the registry of a service path for a worker; when the one it gets has
been retired by its supervisor (or has no profile), it retires it from the
pool and asks again.  The self-call has no bound in the source.  In a
consistent pool every worker of a registry has a profile on that path, so
`retire` removes the worker it is given from the registry: each round
shrinks the registry, and as many rounds as the registry has workers, plus
one, are enough.

## Main results

* `Consistent.maybeActiveWorker_isSome`: in a consistent pool the fuel the
  pool loop gives `maybe_active_worker` is enough.
* `maybeActiveWorker_sound`: in every reachable pool, `maybe_active_worker`
  without `force_create` returns; a worker it hands out is in the path's
  registry, alive, and has its demand raised by one, no other demand
  changes, and the workers it drops on the way were retired, left the
  registry and gave their permits back.
-/

namespace EdgeRuntime.Pool

open EdgeRuntime.Verified EdgeRuntime.Verified.Machine

namespace ActiveWorkerRegistry

theorem permits_markUsedAndTryAdvance (r : ActiveWorkerRegistry) (policy : SupervisorPolicy) :
    (r.markUsedAndTryAdvance policy).1.permits = r.permits := by
  unfold markUsedAndTryAdvance
  split
  · rfl
  · split <;> rfl

theorem length_markUsedAndTryAdvance (r : ActiveWorkerRegistry) (policy : SupervisorPolicy) :
    (r.markUsedAndTryAdvance policy).1.workers.items.length = r.workers.items.length := by
  have hkeys := congrArg List.length (r.keys_markUsedAndTryAdvance policy)
  simpa [KeyedSet.keys] using hkeys

end ActiveWorkerRegistry

namespace WorkerPool

/-- `len()` of the worker set of the registry of `sp`, `0` without one. -/
def registrySize (s : WorkerPool) (sp : String) : Nat :=
  ((s.activeWorkers.lookup sp).map fun r => r.workers.items.length).getD 0

/-- What `maybe_active_worker` guarantees: a worker it hands out is in the
registry, alive, and has one more demand; no other demand changes; and the
workers that left the registry on the way, `gone`, were retired and gave
their permits back. -/
def HandOutSound (s : WorkerPool) (sp : String) (s' : WorkerPool) (o : Option Uuid) : Prop :=
  (∀ k, o = some k → s'.MemberOf sp k ∧ ∃ p, s.userWorkers.lookup k = some p ∧
      p.isRetired = false ∧ s'.userWorkers.lookup k = some { p with demand := p.demand + 1 }) ∧
    (∀ k p, o ≠ some k → s.userWorkers.lookup k = some p →
      ∃ p', s'.userWorkers.lookup k = some p' ∧ p'.demand = p.demand) ∧
    ∀ r, s.activeWorkers.lookup sp = some r → ∃ (gone : List Uuid) (r' : ActiveWorkerRegistry),
      s'.activeWorkers.lookup sp = some r' ∧
      (∀ k, k ∈ r'.workers.keys ↔ k ∈ r.workers.keys ∧ k ∉ gone) ∧
      r'.permits = r.permits + gone.countP (fun k => (s.userWorkers.lookup k).any (·.permit)) ∧
      ∀ k ∈ gone, ∃ p, s.userWorkers.lookup k = some p ∧ p.isRetired = true ∧
        s'.userWorkers.lookup k = some { p with permit := false }

theorem lookup_setProfile {s : WorkerPool} {key k : Uuid} {p : UserWorkerProfile} :
    (s.setProfile key p).userWorkers.lookup k =
      if k = key then some p else s.userWorkers.lookup k := by
  by_cases h : k = key
  · subst h
    simp [setProfile, AList.lookup_insert]
  · simp [setProfile, AList.lookup_insert_ne h, h]

/-! ## One round that retires the worker it found -/

/-- In a consistent pool, `retire` of a worker of the registry of `sp`
removes it from that registry and takes its permit. -/
theorem Consistent.retire_member {s : WorkerPool} (h : s.Consistent) {sp : String}
    {r : ActiveWorkerRegistry} {k : Uuid} (hr : s.activeWorkers.lookup sp = some r)
    (hk : k ∈ r.workers.keys) :
    ∃ p s', s.userWorkers.lookup k = some p ∧ s.retire k = some s' ∧
      s'.activeWorkers.lookup sp = some { retireRegistry r p with workers := r.workers.remove k } ∧
      s'.userWorkers = (s.setProfile k { p with permit := false }).userWorkers := by
  obtain ⟨p, hp, hsp⟩ := Option.map_eq_some_iff.1 (h.registered sp k ⟨r, hr, hk⟩)
  subst hsp
  refine ⟨p, { (s.setProfile k { p with permit := false }).setRegistry p.servicePath
      { retireRegistry r p with workers := r.workers.remove k } with
        retiredUserWorkers := s.retiredUserWorkers + 1 }, hp, ?_, ?_, rfl⟩
  · unfold WorkerPool.retire
    rw [hp]
    dsimp only
    rw [hr]
    dsimp only
    rw [if_pos hk]
  · show (WorkerPool.setRegistry _ _ _).activeWorkers.lookup _ = _
    rw [lookup_setRegistry, if_pos rfl]

/-- A round that drops the worker it found: the worker was in the registry
and retired, it leaves the registry with its permit, and no other profile
changes. -/
theorem Consistent.skip_effect {sp : String} {s s' : WorkerPool} (h : s.Consistent)
    (hs : Skip sp s s') {r : ActiveWorkerRegistry} (hr : s.activeWorkers.lookup sp = some r) :
    ∃ uuid p r', s.userWorkers.lookup uuid = some p ∧ p.isRetired = true ∧
      uuid ∈ r.workers.keys ∧ s'.activeWorkers.lookup sp = some r' ∧
      r'.workers.items.length < r.workers.items.length ∧
      (∀ k, k ∈ r'.workers.keys ↔ k ∈ r.workers.keys ∧ k ≠ uuid) ∧
      r'.permits = r.permits + (if p.permit then 1 else 0) ∧
      s'.userWorkers.lookup uuid = some { p with permit := false } ∧
      ∀ k, k ≠ uuid → s'.userWorkers.lookup k = s.userWorkers.lookup k := by
  obtain ⟨r₀, uuid, hr₀, huuid, hretired, hretire⟩ := hs
  rw [hr] at hr₀
  cases hr₀
  -- the round-robin step keeps the registry's keys, so `uuid` is still in it
  have hkeys := r.keys_markUsedAndTryAdvance s.policy
  have hmem : uuid ∈ r.workers.keys :=
    KeyedSet.key_mem_keys (ActiveWorkerRegistry.markUsedAndTryAdvance_eq_some huuid).1
  have hr₁ : (s.advance sp r).1.activeWorkers.lookup sp = some (r.markUsedAndTryAdvance s.policy).1 := by
    rw [WorkerPool.advance, lookup_setRegistry, if_pos rfl]
  obtain ⟨p, s'', hp, hret, hreg, hprof⟩ :=
    (h.advance hr).retire_member hr₁ (by rw [hkeys]; exact hmem)
  rw [hretire, Option.some.injEq] at hret
  subst hret
  refine ⟨uuid, p, _, hp, hretired p hp, hmem, hreg, ?_, ?_, ?_, ?_, ?_⟩
  · rw [← r.length_markUsedAndTryAdvance s.policy]
    exact KeyedSet.length_remove_lt (by rw [hkeys]; exact hmem)
  · intro k
    rw [KeyedSet.mem_keys_remove, hkeys]
  · simp [retireRegistry, sendNones, r.permits_markUsedAndTryAdvance s.policy]
  · rw [hprof, lookup_setProfile, if_pos rfl]
  · intro k hk
    rw [hprof, lookup_setProfile, if_neg hk]
    rfl

/-- Every dropping round shrinks the registry. -/
theorem Consistent.registrySize_skip {sp : String} {s s' : WorkerPool} (h : s.Consistent)
    (hs : Skip sp s s') : s'.registrySize sp < s.registrySize sp := by
  rcases id hs with ⟨r, _, hr, -⟩
  obtain ⟨_, _, r', -, -, -, hr', hlt, -⟩ := h.skip_effect hs hr
  simp only [registrySize, hr, hr', Option.map_some, Option.getD_some]
  exact hlt

/-! ## Termination -/

/-- In a consistent pool `maybe_active_worker` without `force_create` returns
within one more call than its registry has workers. -/
theorem Consistent.maybeActiveWorker_isSome {sp : String} :
    ∀ (fuel : Nat) {s : WorkerPool}, s.Consistent → s.registrySize sp < fuel →
      (s.maybeActiveWorker fuel sp false).isSome
  | 0, _, _, hlt => absurd hlt (Nat.not_lt_zero _)
  | fuel + 1, s, h, hlt => by
      unfold WorkerPool.maybeActiveWorker
      rw [if_neg Bool.false_ne_true]
      cases hr : s.activeWorkers.lookup sp with
      | none => rfl
      | some r =>
          dsimp only
          rcases hadv : s.advance sp r with ⟨s₁, _ | uuid⟩
          · rfl
          · dsimp only
            -- a dropped worker makes a `Skip`, after which the registry is smaller
            have hrec : ∀ s₂, (∀ p, s₁.userWorkers.lookup uuid = some p → p.isRetired = true) →
                s₁.retire uuid = some s₂ → (s₂.maybeActiveWorker fuel sp false).isSome := by
              intro s₂ hretired hs₂
              have hskip : Skip sp s s₂ :=
                ⟨r, uuid, hr, by rw [hadv], by rw [hadv]; exact hretired, by rw [hadv]; exact hs₂⟩
              exact maybeActiveWorker_isSome fuel (h.skip hskip)
                (by have := h.registrySize_skip hskip; omega)
            have h₁ : s₁.Consistent := by
              have := h.advance hr
              rwa [hadv] at this
            obtain ⟨s₂, hs₂⟩ := Option.isSome_iff_exists.1 (h₁.retire_isSome uuid)
            cases hp : s₁.userWorkers.lookup uuid with
            | none =>
                rw [hs₂, Option.bind_some]
                exact hrec s₂ (fun p hp' => by rw [hp] at hp'; cases hp') hs₂
            | some p =>
                dsimp only
                cases hlive : p.isRetired with
                | false => rfl
                | true =>
                    rw [if_neg (by simp), hs₂, Option.bind_some]
                    exact hrec s₂ (fun p' hp' => by rw [hp] at hp'; cases hp'; exact hlive) hs₂

/-! ## What the rounds do -/

/-- Over the dropping rounds, the workers that leave the registry of `sp`
were retired, and lose their permits to the registry's semaphore. -/
theorem Consistent.skips_effect {sp : String} {s s₁ : WorkerPool} (h : s.Consistent)
    (hs : Relation.ReflTransGen (Skip sp) s s₁) {r : ActiveWorkerRegistry}
    (hr : s.activeWorkers.lookup sp = some r) :
    ∃ (gone : List Uuid) (r₁ : ActiveWorkerRegistry), s₁.activeWorkers.lookup sp = some r₁ ∧
      (∀ k, k ∈ r₁.workers.keys ↔ k ∈ r.workers.keys ∧ k ∉ gone) ∧
      r₁.permits = r.permits + gone.countP (fun k => (s.userWorkers.lookup k).any (·.permit)) ∧
      (∀ k ∈ gone, ∃ p, s.userWorkers.lookup k = some p ∧ p.isRetired = true ∧
        s₁.userWorkers.lookup k = some { p with permit := false }) ∧
      ∀ k, k ∉ gone → s₁.userWorkers.lookup k = s.userWorkers.lookup k := by
  induction hs with
  | refl => exact ⟨[], r, hr, by simp, by simp, by simp, fun _ _ => rfl⟩
  | tail hs₁₂ hstep ih =>
      obtain ⟨gone, r₂, hr₂, hkeys₂, hpermits₂, hgone₂, hother₂⟩ := ih
      obtain ⟨uuid, p, r₃, hp, hretired, hmem, hr₃, -, hkeys₃, hpermits₃, hprof, hother₃⟩ :=
        (h.skips hs₁₂).skip_effect hstep hr₂
      -- the worker dropped now was still in the registry, so not among `gone`
      have hfresh : uuid ∉ gone := ((hkeys₂ uuid).1 hmem).2
      have hp₀ : s.userWorkers.lookup uuid = some p := by rw [← hother₂ uuid hfresh]; exact hp
      refine ⟨gone ++ [uuid], r₃, hr₃, ?_, ?_, ?_, ?_⟩
      · intro k
        rw [hkeys₃, hkeys₂]
        simp only [List.mem_append, List.mem_singleton, not_or]
        tauto
      · rw [hpermits₃, hpermits₂, List.countP_append, List.countP_singleton, hp₀]
        simp only [Option.any_some, Nat.add_assoc]
      · intro k hk
        rcases List.mem_append.1 hk with hk | hk
        · obtain ⟨q, hq, hqret, hq₂⟩ := hgone₂ k hk
          have hne : k ≠ uuid := fun he => hfresh (he ▸ hk)
          exact ⟨q, hq, hqret, by rw [hother₃ k hne]; exact hq₂⟩
        · rw [List.mem_singleton.1 hk]
          exact ⟨p, hp₀, hretired, hprof⟩
      · intro k hk
        simp only [List.mem_append, List.mem_singleton, not_or] at hk
        rw [hother₃ k hk.2, hother₂ k hk.1]

/-- The last round keeps the registry's keys and permits, and changes one
profile at most: the demand of the worker it hands out. -/
theorem Consistent.lastRound_effect {sp : String} {s₁ : WorkerPool}
    {res : WorkerPool × Option Uuid} (hl : LastRound sp s₁ res) :
    (∀ r₁, s₁.activeWorkers.lookup sp = some r₁ → ∃ r', res.1.activeWorkers.lookup sp = some r' ∧
      r'.workers.keys = r₁.workers.keys ∧ r'.permits = r₁.permits) ∧
    (∀ k, res.2 ≠ some k → res.1.userWorkers.lookup k = s₁.userWorkers.lookup k) ∧
    ∀ k, res.2 = some k → (∃ r₁, s₁.activeWorkers.lookup sp = some r₁ ∧ k ∈ r₁.workers.keys) ∧
      ∃ p, s₁.userWorkers.lookup k = some p ∧ p.isRetired = false ∧
        res.1.userWorkers.lookup k = some { p with demand := p.demand + 1 } := by
  have hadv : ∀ r₁ : ActiveWorkerRegistry, ∃ r', (s₁.advance sp r₁).1.activeWorkers.lookup sp = some r' ∧
      r'.workers.keys = r₁.workers.keys ∧ r'.permits = r₁.permits := fun r₁ =>
    ⟨_, by rw [WorkerPool.advance, lookup_setRegistry, if_pos rfl],
      r₁.keys_markUsedAndTryAdvance s₁.policy, r₁.permits_markUsedAndTryAdvance s₁.policy⟩
  cases hl with
  | noRegistry hr =>
      refine ⟨fun r₁ hr₁ => ?_, fun _ _ => rfl, fun _ hk => by cases hk⟩
      rw [hr] at hr₁
      cases hr₁
  | noWorker r hr _ =>
      refine ⟨fun r₁ hr₁ => ?_, fun _ _ => rfl, fun _ hk => by cases hk⟩
      rw [hr, Option.some.injEq] at hr₁
      subst hr₁
      exact hadv r
  | handOut r uuid p hr huuid hp hlive =>
      obtain ⟨r', hr', hkeys', hpermits'⟩ := hadv r
      refine ⟨fun r₁ hr₁ => ?_, fun k hk => ?_, fun k hk => ?_⟩
      · rw [hr, Option.some.injEq] at hr₁
        subst hr₁
        exact ⟨r', hr', hkeys', hpermits'⟩
      · have hne : k ≠ uuid := fun he => hk (he ▸ rfl)
        rw [lookup_setProfile, if_neg hne]
        rfl
      · cases hk
        have hmem : uuid ∈ r.workers.keys :=
          KeyedSet.key_mem_keys (ActiveWorkerRegistry.markUsedAndTryAdvance_eq_some huuid).1
        exact ⟨⟨r, hr, hmem⟩, p, hp, hlive, by rw [lookup_setProfile, if_pos rfl]⟩

/-- Without a registry for `sp` there is no round to drop a worker in. -/
theorem skips_eq_of_lookup_none {sp : String} {s s₁ : WorkerPool}
    (hs₀ : s.activeWorkers.lookup sp = none) (hs : Relation.ReflTransGen (Skip sp) s s₁) :
    s₁ = s := by
  rcases hs.cases_head with he | ⟨s₂, ⟨r, _, hr, -⟩, -⟩
  · exact he.symm
  · rw [hs₀] at hr
    cases hr

/-- In a consistent pool, whatever `maybe_active_worker` returns without
`force_create` is sound. -/
theorem Consistent.handOutSound {fuel : Nat} {s s' : WorkerPool} {sp : String} {o : Option Uuid}
    (h : s.Consistent) (hs : s.maybeActiveWorker fuel sp false = some (s', o)) :
    HandOutSound s sp s' o := by
  rcases maybeActiveWorker_cases fuel hs with ⟨hf, -⟩ | ⟨-, s₁, hskips, hlast⟩
  · cases hf
  obtain ⟨hreg, hother, hout⟩ := Consistent.lastRound_effect hlast
  cases hs₀ : s.activeWorkers.lookup sp with
  | none =>
      -- no registry: the last round is the only one
      have he := skips_eq_of_lookup_none hs₀ hskips
      subst he
      refine ⟨fun k hk => ?_, fun k p hk hp => ⟨p, by rw [hother k hk]; exact hp, rfl⟩,
        fun r hr => by rw [hs₀] at hr; cases hr⟩
      obtain ⟨⟨r₁, hr₁, -⟩, -⟩ := hout k hk
      rw [hs₀] at hr₁
      cases hr₁
  | some r =>
      obtain ⟨gone, r₁, hr₁, hkeys₁, hpermits₁, hgone₁, hother₁⟩ := h.skips_effect hskips hs₀
      obtain ⟨r', hr', hkeys', hpermits'⟩ := hreg r₁ hr₁
      refine ⟨fun k hk => ?_, fun k p hk hp => ?_, fun r₀ hr₀ => ?_⟩
      · obtain ⟨⟨r₂, hr₂, hmem⟩, p, hp, hlive, hp'⟩ := hout k hk
        rw [hr₁, Option.some.injEq] at hr₂
        subst hr₂
        refine ⟨⟨r', hr', by rw [hkeys']; exact hmem⟩, p, ?_, hlive, hp'⟩
        rw [← hother₁ k ((hkeys₁ k).1 hmem).2]
        exact hp
      · rw [hother k hk]
        by_cases hgone : k ∈ gone
        · obtain ⟨q, hq, -, hq₁⟩ := hgone₁ k hgone
          rw [hp, Option.some.injEq] at hq
          subst hq
          exact ⟨_, hq₁, rfl⟩
        · exact ⟨p, by rw [hother₁ k hgone]; exact hp, rfl⟩
      · rw [hs₀, Option.some.injEq] at hr₀
        subst hr₀
        refine ⟨gone, r', hr', fun k => by rw [hkeys']; exact hkeys₁ k,
          by rw [hpermits', hpermits₁], fun k hk => ?_⟩
        obtain ⟨p, hp, hret, hp₁⟩ := hgone₁ k hk
        refine ⟨p, hp, hret, ?_⟩
        -- a dropped worker is not the one handed out, which is still in the registry
        have hne : o ≠ some k := by
          intro ho
          obtain ⟨⟨r₂, hr₂, hmem⟩, -⟩ := hout k ho
          rw [hr₁, Option.some.injEq] at hr₂
          subst hr₂
          exact ((hkeys₁ k).1 hmem).2 hk
        rw [hother k hne]
        exact hp₁

end WorkerPool

open WorkerPool

theorem maybeActiveWorker_sound (policy : SupervisorPolicy) (maxParallelism : Nat)
    (ops : List PoolOp) (s : WorkerPool)
    (hrun : exec (guarded FreshCreated step) (new policy maxParallelism) ops = some s)
    (sp : String) :
    ∃ s' o, s.maybeActiveWorker (s.activeFuel sp) sp false = some (s', o) ∧
      HandOutSound s sp s' o := by
  have h : s.Consistent := (consistent_inductive policy maxParallelism).reachable ⟨ops, hrun⟩
  obtain ⟨⟨s', o⟩, hs⟩ := Option.isSome_iff_exists.1
    (h.maybeActiveWorker_isSome (s.activeFuel sp) (Nat.lt_succ_self _))
  exact ⟨s', o, hs, h.handOutSound hs⟩

/-- A per-request pool whose worker `1`, idle, has been retired by its
supervisor, and whose worker `2` is idle: the hand-out drops `1` and hands
out `2`. -/
theorem maybeActiveWorker_sound_skip :
    ∃ s, exec (guarded FreshCreated step) (new (.perRequest false) 2)
        [.created 1 ⟨"functions/hello", true, 0, false⟩, .idle 1, .raiseRetired 1,
         .created 2 ⟨"functions/hello", true, 0, false⟩, .idle 2] = some s ∧
      ∃ s', s.maybeActiveWorker (s.activeFuel "functions/hello") "functions/hello" false =
          some (s', some 2) ∧ HandOutSound s "functions/hello" s' (some 2) := by
  refine ⟨_, rfl, ?_⟩
  obtain ⟨s', o, hs, hsound⟩ := maybeActiveWorker_sound (.perRequest false) 2
    [.created 1 ⟨"functions/hello", true, 0, false⟩, .idle 1, .raiseRetired 1,
     .created 2 ⟨"functions/hello", true, 0, false⟩, .idle 2] _ rfl "functions/hello"
  have ho := congrArg (Option.map Prod.snd) hs
  rw [show Option.map Prod.snd (WorkerPool.maybeActiveWorker _ _ "functions/hello" false) =
    some (some 2) from rfl, Option.map_some, Option.some.injEq] at ho
  subst ho
  exact ⟨s', hs, hsound⟩

end EdgeRuntime.Pool
