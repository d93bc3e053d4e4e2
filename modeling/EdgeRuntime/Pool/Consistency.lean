import EdgeRuntime.Pool.WorkerPool

/-!
# Consistency of the pool's maps over whole runs

The pool keeps the same workers in two places: each profile in
`user_workers`, and each worker's id in the registry of its service path.
`retire` looks the registry up with `expect("registry must be initialized
at this point")`, and `shutdown` decrements the shared worker counter, an
`AtomicUsize` that wraps below zero.  Both are safe only if the two maps and
the counter agree, which `Consistent` states:

* (a) every id in the registry of `sp` has a profile whose path is `sp`;
* (b) every profile's path has a registry;
* (c) the counter equals the number of profiles.

The invariant reads the pool through three views (registry membership, the
path of each profile, the number of profiles), and `Consistent.mono` says
once which changes of the views keep it.  Every operation that neither adds
nor removes a worker is then a one-line instance; `add_user_worker` and
`shutdown`, which do, are proved on their own.

## Main results

* `Consistent.step`: every operation of the pool keeps the invariant, given
  that a `Created` message carries a key the pool does not know.
* `pool_consistent`: every state reached from `WorkerPool::new` satisfies
  (a), (b) and (c), and `retire` never panics in it.
-/

namespace EdgeRuntime.Pool

open EdgeRuntime.Verified EdgeRuntime.Verified.Machine

namespace WorkerPool

/-! ## What the invariant reads -/

/-- `k` is in the worker set of the registry of `sp`. -/
def MemberOf (s : WorkerPool) (sp : String) (k : Uuid) : Prop :=
  ∃ r, s.activeWorkers.lookup sp = some r ∧ k ∈ r.workers.keys

/-- The service path recorded in `k`'s profile. -/
def pathOf (s : WorkerPool) (k : Uuid) : Option String :=
  (s.userWorkers.lookup k).map UserWorkerProfile.servicePath

/-- `user_workers.len()`. -/
def size (s : WorkerPool) : Nat := s.userWorkers.keys.length

/-- The maps and the counter agree. -/
structure Consistent (s : WorkerPool) : Prop where
  registered : ∀ sp k, s.MemberOf sp k → s.pathOf k = some sp
  hasRegistry : ∀ k sp, s.pathOf k = some sp → sp ∈ s.activeWorkers
  counted : s.activeUserWorkers = UInt64.ofNat s.size

theorem mem_userWorkers_of_pathOf {s : WorkerPool} {k : Uuid} {sp : String}
    (h : s.pathOf k = some sp) : k ∈ s.userWorkers := by
  unfold pathOf at h
  rw [← AList.lookup_isSome]
  cases hk : s.userWorkers.lookup k with
  | none => rw [hk] at h; cases h
  | some p => rfl

theorem pathOf_eq_none {s : WorkerPool} {k : Uuid} (h : k ∉ s.userWorkers) :
    s.pathOf k = none := by
  simp [pathOf, AList.lookup_eq_none.2 h]

/-! ## The views under the two basic updates -/

theorem memberOf_setRegistry {s : WorkerPool} {sp sp' : String} {r : ActiveWorkerRegistry}
    {k : Uuid} :
    (s.setRegistry sp r).MemberOf sp' k ↔
      if sp' = sp then k ∈ r.workers.keys else s.MemberOf sp' k := by
  by_cases h : sp' = sp
  · subst h
    simp [MemberOf, setRegistry, AList.lookup_insert]
  · simp [MemberOf, setRegistry, AList.lookup_insert_ne h, h]

theorem mem_setRegistry {s : WorkerPool} {sp sp' : String} {r : ActiveWorkerRegistry} :
    sp' ∈ (s.setRegistry sp r).activeWorkers ↔ sp' = sp ∨ sp' ∈ s.activeWorkers :=
  AList.mem_insert _

theorem pathOf_setProfile {s : WorkerPool} {k k' : Uuid} {p : UserWorkerProfile} :
    (s.setProfile k p).pathOf k' = if k' = k then some p.servicePath else s.pathOf k' := by
  by_cases h : k' = k
  · subst h
    simp [pathOf, setProfile, AList.lookup_insert]
  · simp [pathOf, setProfile, AList.lookup_insert_ne h, h]

theorem size_setProfile {s : WorkerPool} {k : Uuid} {p : UserWorkerProfile} :
    (s.setProfile k p).size = if k ∈ s.userWorkers then s.size else s.size + 1 := by
  simp only [size, setProfile, AList.keys_insert, List.length_cons]
  split
  · rename_i h
    have hk : k ∈ s.userWorkers.keys := AList.mem_keys.1 h
    have hpos := List.length_pos_of_mem hk
    rw [List.length_erase_of_mem hk]
    omega
  · rename_i h
    rw [List.erase_of_not_mem (fun hk => h (AList.mem_keys.2 hk))]

/-! ## One rule for the operations that keep the set of workers -/

/-- Fewer registered ids, the same profile paths, at least the same
registries and the same count keep the invariant. -/
theorem Consistent.mono {s s' : WorkerPool} (h : s.Consistent)
    (hmem : ∀ sp k, s'.MemberOf sp k → s.MemberOf sp k)
    (hpath : ∀ k, s'.pathOf k = s.pathOf k)
    (hreg : ∀ sp, sp ∈ s.activeWorkers → sp ∈ s'.activeWorkers)
    (hsize : s'.size = s.size) (hcount : s'.activeUserWorkers = s.activeUserWorkers) :
    s'.Consistent where
  registered sp k hk := (hpath k).trans (h.registered sp k (hmem sp k hk))
  hasRegistry k sp hk := hreg sp (h.hasRegistry k sp ((hpath k).symm.trans hk))
  counted := by rw [hcount, hsize]; exact h.counted

/-- Storing a registry whose ids were already registered under its path. -/
theorem Consistent.setRegistry {s : WorkerPool} (h : s.Consistent) {sp : String}
    {r : ActiveWorkerRegistry} (hr : ∀ k ∈ r.workers.keys, s.MemberOf sp k) :
    (s.setRegistry sp r).Consistent := by
  refine h.mono (fun sp' k hk => ?_) (fun _ => rfl)
    (fun sp' hsp' => mem_setRegistry.2 (Or.inr hsp')) rfl rfl
  rw [memberOf_setRegistry] at hk
  split at hk
  · rename_i hsp
    exact hsp ▸ hr k hk
  · exact hk

/-- Storing back a registry with the same ids. -/
theorem Consistent.setRegistry_keys {s : WorkerPool} (h : s.Consistent) {sp : String}
    {r r' : ActiveWorkerRegistry} (hr : s.activeWorkers.lookup sp = some r)
    (hkeys : ∀ k ∈ r'.workers.keys, k ∈ r.workers.keys) :
    (s.setRegistry sp r').Consistent :=
  h.setRegistry fun k hk => ⟨r, hr, hkeys k hk⟩

/-- Rewriting a profile without moving it to another path. -/
theorem Consistent.setProfile {s : WorkerPool} (h : s.Consistent) {k : Uuid}
    {p : UserWorkerProfile} (hk : s.pathOf k = some p.servicePath) :
    (s.setProfile k p).Consistent := by
  refine h.mono (fun _ _ hm => hm) (fun k' => ?_) (fun _ hsp => hsp) ?_ rfl
  · rw [pathOf_setProfile]
    split
    · rename_i hk'
      rw [hk', hk]
    · rfl
  · rw [size_setProfile, if_pos (mem_userWorkers_of_pathOf hk)]

/-! ## Operations that keep the set of workers -/

theorem Consistent.idle {s : WorkerPool} (h : s.Consistent) (k : Uuid) :
    (s.idle k).Consistent := by
  unfold WorkerPool.idle
  split
  · exact h
  · split
    · exact h
    · rename_i r hr
      exact h.setRegistry_keys hr fun k' hk' => by rwa [r.keys_markIdle] at hk'

theorem Consistent.raiseRetired {s : WorkerPool} (h : s.Consistent) (k : Uuid) :
    (s.raiseRetired k).Consistent := by
  unfold WorkerPool.raiseRetired
  split
  · exact h
  · rename_i p hp
    exact h.setProfile (by simp [pathOf, hp])

theorem Consistent.relayout {s : WorkerPool} (h : s.Consistent) (sp : String)
    (ws : List WorkerId) : (s.relayout sp ws).Consistent := by
  unfold WorkerPool.relayout
  split
  · exact h
  · rename_i r hr
    refine h.setRegistry_keys hr fun k hk => ?_
    obtain ⟨w, hw, rfl⟩ := KeyedSet.mem_keys.1 hk
    exact KeyedSet.key_mem_keys (KeyedSet.mem_relayout.1 hw)

/-- Bumping the retired-workers metric changes nothing the invariant reads. -/
theorem Consistent.retiredUserWorkers {s : WorkerPool} (h : s.Consistent) (n : UInt64) :
    ({ s with retiredUserWorkers := n } : WorkerPool).Consistent :=
  h.mono (fun _ _ hm => hm) (fun _ => rfl) (fun _ hsp => hsp) rfl rfl

/-- `retire` keeps the invariant: it rewrites the profile in place and only
removes the id from the registry. -/
theorem Consistent.retire {s s' : WorkerPool} (h : s.Consistent) {k : Uuid}
    (hs : s.retire k = some s') : s'.Consistent := by
  unfold WorkerPool.retire at hs
  split at hs
  · cases hs
    exact h
  · rename_i p hp
    split at hs
    · cases hs
    · rename_i r hr
      have h1 : (s.setProfile k { p with permit := false }).Consistent :=
        h.setProfile (by simp [pathOf, hp])
      have hr1 : (s.setProfile k { p with permit := false }).activeWorkers.lookup
          p.servicePath = some r := hr
      split at hs
      · cases hs
        refine (h1.setRegistry_keys hr1 fun k' hk' => ?_).retiredUserWorkers _
        exact (KeyedSet.mem_keys_remove.1 hk').1
      · cases hs
        exact h1.setRegistry_keys hr1 fun _ hk' => hk'

/-- Where the invariant holds, `retire` finds its registry. -/
theorem Consistent.retire_isSome {s : WorkerPool} (h : s.Consistent) (k : Uuid) :
    (s.retire k).isSome := by
  unfold WorkerPool.retire
  split
  · rfl
  · rename_i p hp
    have hreg : p.servicePath ∈ s.activeWorkers := h.hasRegistry k _ (by simp [pathOf, hp])
    obtain ⟨r, hr⟩ := Option.isSome_iff_exists.1 (AList.lookup_isSome.2 hreg)
    simp only [hr]
    split <;> rfl

/-- After `retire`, the id is in no registry. -/
theorem Consistent.retire_not_memberOf {s s' : WorkerPool} (h : s.Consistent) {k : Uuid}
    (hs : s.retire k = some s') (sp : String) : ¬ s'.MemberOf sp k := by
  unfold WorkerPool.retire at hs
  split at hs
  · rename_i hk
    cases hs
    intro hm
    have hpath := h.registered sp k hm
    simp [pathOf, hk] at hpath
  · rename_i p hp
    split at hs
    · cases hs
    · rename_i r hr
      have hother : sp ≠ p.servicePath → ¬ s.MemberOf sp k := fun hne hm => by
        have hpath := h.registered sp k hm
        simp only [pathOf, hp, Option.map_some, Option.some.injEq] at hpath
        exact hne hpath.symm
      split at hs
      · cases hs
        intro hm
        change (WorkerPool.setRegistry _ _ _).MemberOf sp k at hm
        rw [memberOf_setRegistry] at hm
        split at hm
        · exact (KeyedSet.mem_keys_remove.1 hm).2 rfl
        · rename_i hne
          exact hother hne hm
      · rename_i hnot
        cases hs
        intro hm
        rw [memberOf_setRegistry] at hm
        split at hm
        · exact hnot hm
        · rename_i hne
          exact hother hne hm

/-! ## Handing out an active worker -/

theorem Consistent.advance {s : WorkerPool} (h : s.Consistent) {sp : String}
    {r : ActiveWorkerRegistry} (hr : s.activeWorkers.lookup sp = some r) :
    (s.advance sp r).1.Consistent :=
  h.setRegistry_keys hr fun k hk => by rwa [r.keys_markUsedAndTryAdvance] at hk

theorem Consistent.skip {sp : String} {s s' : WorkerPool} (h : s.Consistent)
    (hs : Skip sp s s') : s'.Consistent := by
  obtain ⟨r, uuid, hr, -, -, hret⟩ := hs
  exact (h.advance hr).retire hret

theorem Consistent.skips {sp : String} {s s' : WorkerPool} (h : s.Consistent)
    (hs : Relation.ReflTransGen (Skip sp) s s') : s'.Consistent := by
  induction hs with
  | refl => exact h
  | tail _ hstep ih => exact ih.skip hstep

theorem Consistent.lastRound {sp : String} {s : WorkerPool} {res : WorkerPool × Option Uuid}
    (h : s.Consistent) (hl : LastRound sp s res) : res.1.Consistent := by
  cases hl with
  | noRegistry => exact h
  | noWorker r hr => exact h.advance hr
  | handOut r uuid p hr _ hp => exact (h.advance hr).setProfile (by simp [pathOf, hp])

/-- `maybe_active_worker` keeps the invariant: each skipped round retires a
worker, and the last one at most counts a demand. -/
theorem Consistent.maybeActiveWorker {fuel : Nat} {s s' : WorkerPool} {sp : String}
    {force : Bool} {o : Option Uuid} (h : s.Consistent)
    (hs : s.maybeActiveWorker fuel sp force = some (s', o)) : s'.Consistent := by
  rcases maybeActiveWorker_cases fuel hs with ⟨-, hres⟩ | ⟨-, s1, hskips, hlast⟩
  · cases hres
    exact h
  · exact (h.skips hskips).lastRound hlast

/-- The ids in the registry `or_insert_with` yields were registered there. -/
theorem memberOf_of_registryOrNew {s : WorkerPool} {sp : String} {k : Uuid}
    (hk : k ∈ (s.registryOrNew sp).workers.keys) : s.MemberOf sp k := by
  unfold registryOrNew at hk
  cases hr : s.activeWorkers.lookup sp with
  | none =>
      rw [hr] at hk
      simp [ActiveWorkerRegistry.new, KeyedSet.empty, KeyedSet.keys] at hk
  | some r =>
      rw [hr] at hk
      exact ⟨r, hr, hk⟩

theorem Consistent.parkFence {s : WorkerPool} (h : s.Consistent) (sp : String) :
    (s.parkFence sp).Consistent :=
  h.setRegistry fun _ hk => memberOf_of_registryOrNew hk

theorem Consistent.createUserWorker {s s' : WorkerPool} (h : s.Consistent) {sp : String}
    {force : Bool} {o : Option Uuid} (hs : s.createUserWorker sp force = some (s', o)) :
    s'.Consistent := by
  unfold WorkerPool.createUserWorker at hs
  obtain ⟨⟨s1, o1⟩, hs1, hres⟩ := Option.map_eq_some_iff.1 hs
  have h1 := h.maybeActiveWorker hs1
  cases o1 with
  | some key =>
      cases hres
      exact h1
  | none =>
      cases hres
      exact h1.parkFence sp

/-! ## Adding and removing a worker -/

/-- `add_user_worker` with a key the pool does not know. -/
theorem Consistent.addUserWorker {s : WorkerPool} (h : s.Consistent) {k : Uuid}
    {p : UserWorkerProfile} (hk : k ∉ s.userWorkers) : (s.addUserWorker k p).Consistent := by
  have hpath_k : s.pathOf k = none := pathOf_eq_none hk
  let r' : ActiveWorkerRegistry := { s.registryOrNew p.servicePath with
    workers := (s.registryOrNew p.servicePath).workers.insert ⟨k, s.policy.isPerWorker⟩ }
  have heq : s.addUserWorker k p =
      { (s.setProfile k p).setRegistry p.servicePath r' with
        activeUserWorkers := s.activeUserWorkers + 1 } := rfl
  rw [heq]
  refine ⟨fun sp k' hm => ?_, fun k' sp hpath => ?_, ?_⟩
  · change ((s.setProfile k p).setRegistry p.servicePath r').MemberOf sp k' at hm
    change (s.setProfile k p).pathOf k' = some sp
    rw [memberOf_setRegistry] at hm
    rw [pathOf_setProfile]
    split at hm
    · rename_i hsp
      subst hsp
      rcases KeyedSet.mem_keys_insert.1 hm with hkk | hold
      · rw [if_pos hkk]
      · have hpath := h.registered _ k' (memberOf_of_registryOrNew hold)
        have hne : k' ≠ k := fun he => by rw [he, hpath_k] at hpath; cases hpath
        rw [if_neg hne, hpath]
    · have hpath := h.registered sp k' hm
      have hne : k' ≠ k := fun he => by rw [he, hpath_k] at hpath; cases hpath
      rw [if_neg hne, hpath]
  · change (s.setProfile k p).pathOf k' = some sp at hpath
    rw [pathOf_setProfile] at hpath
    apply mem_setRegistry.2
    split at hpath
    · cases hpath
      exact Or.inl rfl
    · exact Or.inr (h.hasRegistry k' sp hpath)
  · change s.activeUserWorkers + 1 = UInt64.ofNat (s.setProfile k p).size
    rw [size_setProfile, if_neg hk, h.counted, UInt64.ofNat_add]
    rfl

/-- The second half of `shutdown` removes a worker that no registry holds. -/
theorem Consistent.shutdownRetired {s : WorkerPool} (h : s.Consistent) {k : Uuid}
    (hk : ∀ sp, ¬ s.MemberOf sp k) : (s.shutdownRetired k).Consistent := by
  unfold WorkerPool.shutdownRetired
  split
  · exact h
  · rename_i p hp
    have hreg : p.servicePath ∈ s.activeWorkers := h.hasRegistry k _ (by simp [pathOf, hp])
    split
    · rename_i hr
      exact absurd hreg (AList.lookup_eq_none.1 hr)
    · rename_i r hr
      have hkeys : k ∈ s.userWorkers.keys := AList.mem_keys.1 (AList.lookup_isSome.1 (by
        rw [hp]; rfl))
      have hpath_ne : ∀ k', k' ≠ k →
          (s.userWorkers.erase k).lookup k' = s.userWorkers.lookup k' :=
        fun k' hne => AList.lookup_erase_ne hne
      refine ⟨fun sp k' hm => ?_, fun k' sp hpath => ?_, ?_⟩
      · change (s.setRegistry p.servicePath (r.send none)).MemberOf sp k' at hm
        have hold : s.MemberOf sp k' := by
          rw [memberOf_setRegistry] at hm
          split at hm
          · rename_i hsp
            exact hsp ▸ ⟨r, hr, hm⟩
          · exact hm
        have hne : k' ≠ k := fun he => hk sp (he ▸ hold)
        change ((s.userWorkers.erase k).lookup k').map UserWorkerProfile.servicePath = some sp
        rw [hpath_ne k' hne]
        exact h.registered sp k' hold
      · change ((s.userWorkers.erase k).lookup k').map UserWorkerProfile.servicePath = some sp
          at hpath
        have hne : k' ≠ k := fun he => by
          rw [he, AList.lookup_erase] at hpath
          cases hpath
        rw [hpath_ne k' hne] at hpath
        exact mem_setRegistry.2 (Or.inr (h.hasRegistry k' sp hpath))
      · change s.activeUserWorkers - 1 = UInt64.ofNat (s.userWorkers.erase k).keys.length
        rw [AList.keys_erase, List.length_erase_of_mem hkeys, h.counted]
        have hpos := List.length_pos_of_mem hkeys
        obtain ⟨m, hm⟩ : ∃ m, s.userWorkers.keys.length = m + 1 := ⟨_, (Nat.succ_pred_eq_of_pos hpos).symm⟩
        simp only [size, hm, UInt64.ofNat_add, Nat.add_sub_cancel]
        simp

theorem Consistent.shutdown {s s' : WorkerPool} (h : s.Consistent) {k : Uuid}
    (hs : s.shutdown k = some s') : s'.Consistent := by
  unfold WorkerPool.shutdown at hs
  obtain ⟨s1, hs1, rfl⟩ := Option.map_eq_some_iff.1 hs
  exact (h.retire hs1).shutdownRetired (h.retire_not_memberOf hs1)

/-! ## Whole runs -/

/-- The environment's side of `add_user_worker`: a `Created` message carries a
uuid drawn by `Uuid::new_v4`, which the pool does not know. -/
def FreshCreated (s : WorkerPool) : PoolOp → Bool
  | .created k _ => decide (k ∉ s.userWorkers)
  | _ => true

/-- Every operation keeps the invariant. -/
theorem Consistent.step {s s' : WorkerPool} {op : PoolOp} (h : s.Consistent)
    (hfresh : s.FreshCreated op = true) (hs : s.step op = some s') : s'.Consistent := by
  cases op with
  | create sp force =>
      obtain ⟨⟨s1, o⟩, hs1, rfl⟩ := Option.map_eq_some_iff.1 hs
      exact h.createUserWorker hs1
  | created k p =>
      cases hs
      exact h.addUserWorker (of_decide_eq_true hfresh)
  | idle k =>
      cases hs
      exact h.idle k
  | shutdown k => exact h.shutdown hs
  | raiseRetired k =>
      cases hs
      exact h.raiseRetired k
  | relayout sp ws =>
      cases hs
      exact h.relayout sp ws

theorem consistent_new (policy : SupervisorPolicy) (maxParallelism : Nat) :
    (new policy maxParallelism).Consistent where
  registered sp k hm := by
    obtain ⟨r, hr, -⟩ := hm
    cases hr
  hasRegistry k sp hpath := by cases hpath
  counted := rfl

theorem consistent_inductive (policy : SupervisorPolicy) (maxParallelism : Nat) :
    Inductive (guarded FreshCreated step) (new policy maxParallelism) Consistent where
  init := consistent_new policy maxParallelism
  step s op s' h hs := by
    obtain ⟨hfresh, hstep⟩ := guarded_eq_some hs
    exact h.step hfresh hstep

end WorkerPool

open WorkerPool

/-- Every state the pool reaches from `WorkerPool::new` through creations,
hand-outs, idles, shutdowns, retirements by the supervisors and layout
changes of the registries' sets, with every `Created` key fresh, keeps its
maps and counter consistent, and `retire` finds its registry in it. -/
theorem pool_consistent (policy : SupervisorPolicy) (maxParallelism : Nat) (ops : List PoolOp)
    (s : WorkerPool) (hrun : exec (guarded FreshCreated step) (new policy maxParallelism) ops = some s) :
    (∀ sp r, s.activeWorkers.lookup sp = some r → ∀ w ∈ r.workers.items,
        ∃ p, s.userWorkers.lookup w.key = some p ∧ p.servicePath = sp) ∧
    (∀ k p, s.userWorkers.lookup k = some p → p.servicePath ∈ s.activeWorkers) ∧
    s.activeUserWorkers = UInt64.ofNat s.userWorkers.keys.length ∧
    ∀ k, (s.retire k).isSome := by
  have h : s.Consistent := (consistent_inductive policy maxParallelism).reachable ⟨ops, hrun⟩
  refine ⟨fun sp r hr w hw => ?_, fun k p hp => ?_, h.counted, h.retire_isSome⟩
  · have hpath := h.registered sp w.key ⟨r, hr, KeyedSet.key_mem_keys hw⟩
    obtain ⟨p, hp, hsp⟩ := Option.map_eq_some_iff.1 hpath
    exact ⟨p, hp, hsp⟩
  · exact h.hasRegistry k _ (by simp [pathOf, hp])

/-- A per-request pool that creates one worker and marks it idle. -/
theorem pool_consistent_one_idle :
    ∃ s, exec (guarded FreshCreated step) (new (.perRequest false) 1)
        [.created 1 ⟨"functions/hello", true, 0, false⟩, .idle 1] = some s ∧
      s.activeUserWorkers = UInt64.ofNat s.userWorkers.keys.length ∧ ∀ k, (s.retire k).isSome :=
  ⟨_, rfl, (pool_consistent (.perRequest false) 1
    [.created 1 ⟨"functions/hello", true, 0, false⟩, .idle 1] _ rfl).2.2⟩

end EdgeRuntime.Pool
