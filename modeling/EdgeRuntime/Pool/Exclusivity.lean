import EdgeRuntime.Pool.Consistency

/-!
# One request at a time under the per-request policy

Under `SupervisorPolicy::PerRequest` a worker serves one request at a time.
`add_user_worker` inserts it flagged busy, `mark_used_and_try_advance` hands
out only a worker flagged available and flags it busy, and only
`mark_idle` flags it available again.  `Busy s k` says that no registry
holds `k` flagged available.  Every operation but `idle k` keeps it, a
hand-out of `k` needs it to fail, and every hand-out of `k` sets it.

A worker is handed out in two ways: `create_user_worker` returns a worker
of the path's registry at once, or the creation task returns the worker
whose `Created` message the pool receives.  Worker keys are `Uuid::new_v4`
values, so the `Created` messages of a run carry distinct keys.

## Main results

* `Busy.step`: every operation but `idle k` keeps `k` busy.
* `handOut_exclusive`: in every run from `WorkerPool::new`, two hand-outs
  of `k` have an `idle k` between them.
-/

namespace EdgeRuntime.Pool

open EdgeRuntime.Verified EdgeRuntime.Verified.Machine

/-- The key of a `Created` message. -/
def PoolOp.createdKey : PoolOp → Option Uuid
  | .created key _ => some key
  | _ => none

namespace WorkerPool

/-- No registry holds `k` flagged available. -/
def Busy (s : WorkerPool) (k : Uuid) : Prop :=
  ∀ sp r, s.activeWorkers.lookup sp = some r → ⟨k, true⟩ ∉ r.workers.items

/-- The worker an operation hands out: the one `create_user_worker` returns
at once, or the one a `Created` message adds. -/
def handOut (s : WorkerPool) : PoolOp → Option Uuid
  | .create sp forceCreate => (s.createUserWorker sp forceCreate).bind Prod.snd
  | .created key _ => some key
  | _ => none

/-! ## Busy under the registry updates -/

section Busy

variable {s : WorkerPool} {k : Uuid}

theorem Busy.setRegistry (h : s.Busy k) {sp : String} {r : ActiveWorkerRegistry}
    (hr : ⟨k, true⟩ ∉ r.workers.items) : (s.setRegistry sp r).Busy k := by
  intro sp' r' hr'
  rw [lookup_setRegistry] at hr'
  by_cases hsp : sp' = sp
  · rw [if_pos hsp, Option.some.injEq] at hr'
    exact hr' ▸ hr
  · rw [if_neg hsp] at hr'
    exact h sp' r' hr'

/-- Replacing a registry by one that flags no more of `k` available. -/
theorem Busy.setRegistry_of (h : s.Busy k) {sp : String} {r r' : ActiveWorkerRegistry}
    (hr : s.activeWorkers.lookup sp = some r)
    (hsub : ⟨k, true⟩ ∈ r'.workers.items → ⟨k, true⟩ ∈ r.workers.items) :
    (s.setRegistry sp r').Busy k :=
  h.setRegistry fun hk => h sp r hr (hsub hk)

theorem Busy.advance (h : s.Busy k) {sp : String} {r : ActiveWorkerRegistry}
    (hr : s.activeWorkers.lookup sp = some r) : (s.advance sp r).1.Busy k :=
  h.setRegistry_of hr fun hk =>
    (ActiveWorkerRegistry.mem_markUsedAndTryAdvance hk).resolve_right (by simp)

theorem Busy.retire (h : s.Busy k) {key : Uuid} {s' : WorkerPool}
    (hs : s.retire key = some s') : s'.Busy k := by
  unfold WorkerPool.retire at hs
  split at hs
  · cases hs
    exact h
  · rename_i p hp
    split at hs
    · cases hs
    · rename_i r hr
      split at hs
      · cases hs
        exact Busy.setRegistry_of h hr fun hk => (KeyedSet.mem_remove.1 hk).1
      · cases hs
        exact Busy.setRegistry_of h hr id

theorem Busy.skips (h : s.Busy k) {sp : String} {s' : WorkerPool}
    (hs : Relation.ReflTransGen (Skip sp) s s') : s'.Busy k := by
  induction hs with
  | refl => exact h
  | tail _ hstep ih =>
      obtain ⟨r, uuid, hr, -, -, hret⟩ := hstep
      exact (ih.advance hr).retire hret

theorem Busy.lastRound (h : s.Busy k) {sp : String} {res : WorkerPool × Option Uuid}
    (hl : LastRound sp s res) : res.1.Busy k := by
  cases hl with
  | noRegistry => exact h
  | noWorker r hr => exact h.advance hr
  | handOut r uuid p hr => exact h.advance hr

theorem Busy.createUserWorker (h : s.Busy k) {sp : String} {force : Bool} {s' : WorkerPool}
    {o : Option Uuid} (hs : s.createUserWorker sp force = some (s', o)) : s'.Busy k := by
  unfold WorkerPool.createUserWorker at hs
  obtain ⟨⟨s1, o1⟩, hs1, hres⟩ := Option.map_eq_some_iff.1 hs
  have h1 : s1.Busy k := by
    rcases maybeActiveWorker_cases _ hs1 with ⟨-, hres1⟩ | ⟨-, s2, hskips, hlast⟩
    · cases hres1
      exact h
    · exact (h.skips hskips).lastRound hlast
  cases o1 with
  | some key =>
      cases hres
      exact h1
  | none =>
      cases hres
      exact h1.setRegistry fun hk => by
        obtain ⟨r, hr, hk⟩ := mem_registryOrNew hk
        exact h1 sp r hr hk

/-- Under the per-request policy a new worker joins its registry busy. -/
theorem Busy.addUserWorker (h : s.Busy k) (hpol : s.policy.isPerWorker = false) (key : Uuid)
    (p : UserWorkerProfile) : (s.addUserWorker key p).Busy k := by
  have hr : ⟨k, true⟩ ∉ ((s.registryOrNew p.servicePath).workers.insert
      ⟨key, s.policy.isPerWorker⟩).items := by
    intro hk
    rcases KeyedSet.mem_insert.1 hk with hold | ⟨he, -⟩
    · obtain ⟨r, hr, hold⟩ := mem_registryOrNew hold
      exact h _ r hr hold
    · rw [hpol] at he
      cases he
  intro sp r hr'
  exact Busy.setRegistry h hr sp r hr'

theorem Busy.idle (h : s.Busy k) {key : Uuid} (hkey : key ≠ k) : (s.idle key).Busy k := by
  unfold WorkerPool.idle
  split
  · exact h
  · split
    · exact h
    · rename_i r hr
      refine h.setRegistry_of hr fun hk => ?_
      rcases ActiveWorkerRegistry.mem_markIdle hk with hold | he
      · exact hold
      · exact absurd he.symm hkey

theorem Busy.shutdown (h : s.Busy k) {key : Uuid} {s' : WorkerPool}
    (hs : s.shutdown key = some s') : s'.Busy k := by
  unfold WorkerPool.shutdown at hs
  obtain ⟨s1, hs1, rfl⟩ := Option.map_eq_some_iff.1 hs
  have h1 := h.retire hs1
  unfold shutdownRetired
  split
  · exact h1
  · split
    · exact h1
    · rename_i r hr
      have hb : (s1.setRegistry _ (r.send none)).Busy k := h1.setRegistry_of hr id
      intro sp r' hr'
      exact hb sp r' hr'

theorem Busy.raiseRetired (h : s.Busy k) (key : Uuid) : (s.raiseRetired key).Busy k := by
  unfold WorkerPool.raiseRetired
  split
  · exact h
  · exact h

theorem Busy.relayout (h : s.Busy k) (sp : String) (ws : List WorkerId) :
    (s.relayout sp ws).Busy k := by
  unfold WorkerPool.relayout
  split
  · exact h
  · rename_i r hr
    exact h.setRegistry_of hr fun hk => KeyedSet.mem_relayout.1 hk

/-- Under the per-request policy every operation but `idle k` keeps `k`
busy. -/
theorem Busy.step (h : s.Busy k) (hpol : s.policy.isPerWorker = false) {op : PoolOp}
    (hop : op ≠ .idle k) {s' : WorkerPool} (hs : s.step op = some s') : s'.Busy k := by
  cases op with
  | create sp forceCreate =>
      obtain ⟨⟨s1, o⟩, h1, rfl⟩ := Option.map_eq_some_iff.1 hs
      exact h.createUserWorker h1
  | created key p =>
      cases hs
      exact h.addUserWorker hpol key p
  | idle key =>
      cases hs
      exact h.idle fun he => hop (he ▸ rfl)
  | shutdown key => exact h.shutdown hs
  | raiseRetired key =>
      cases hs
      exact h.raiseRetired key
  | relayout sp ws =>
      cases hs
      exact h.relayout sp ws

end Busy

/-! ## What a hand-out needs and what it leaves -/

/-- The round-robin step hands out only a worker flagged available. -/
theorem not_busy_of_lastRound {sp : String} {s s' : WorkerPool} {k : Uuid}
    (h : LastRound sp s (s', some k)) : ¬ s.Busy k := by
  intro hb
  cases h with
  | handOut r uuid p hr hadv => exact hb sp r hr (ActiveWorkerRegistry.markUsedAndTryAdvance_eq_some hadv).1

theorem not_busy_of_createUserWorker {s s' : WorkerPool} {sp : String} {force : Bool}
    {k : Uuid} (hs : s.createUserWorker sp force = some (s', some k)) : ¬ s.Busy k := by
  intro hb
  unfold WorkerPool.createUserWorker at hs
  obtain ⟨⟨s1, o1⟩, hs1, hres⟩ := Option.map_eq_some_iff.1 hs
  cases o1 with
  | none => cases hres
  | some key =>
      cases hres
      rcases maybeActiveWorker_cases _ hs1 with ⟨-, hres1⟩ | ⟨-, s2, hskips, hlast⟩
      · cases hres1
      · exact not_busy_of_lastRound hlast (hb.skips hskips)

/-- Under the per-request policy the worker the round-robin step hands out
is busy afterwards: it is flagged busy in its registry, and the invariant
keeps it out of every other. -/
theorem busy_of_lastRound {sp : String} {s s' : WorkerPool} {k : Uuid} (hc : s.Consistent)
    (hpol : s.policy.isPerRequest = true) (h : LastRound sp s (s', some k)) : s'.Busy k := by
  cases h with
  | handOut r uuid p hr hadv =>
      have hgot := ActiveWorkerRegistry.markUsedAndTryAdvance_eq_some hadv
      intro sp' r' hr' hk
      change (s.setRegistry sp (r.markUsedAndTryAdvance s.policy).1).activeWorkers.lookup sp' =
        some r' at hr'
      rw [lookup_setRegistry] at hr'
      by_cases hsp : sp' = sp
      · rw [if_pos hsp, Option.some.injEq] at hr'
        subst hr'
        exact hgot.2 hpol hk
      · rw [if_neg hsp] at hr'
        have h1 := hc.registered sp' k ⟨r', hr', KeyedSet.key_mem_keys hk⟩
        have h2 := hc.registered sp k ⟨r, hr, KeyedSet.key_mem_keys hgot.1⟩
        rw [h1] at h2
        exact hsp (Option.some.inj h2)

theorem busy_of_createUserWorker {s s' : WorkerPool} {sp : String} {force : Bool} {k : Uuid}
    (hc : s.Consistent) (hpol : s.policy.isPerRequest = true)
    (hs : s.createUserWorker sp force = some (s', some k)) : s'.Busy k := by
  unfold WorkerPool.createUserWorker at hs
  obtain ⟨⟨s1, o1⟩, hs1, hres⟩ := Option.map_eq_some_iff.1 hs
  cases o1 with
  | none => cases hres
  | some key =>
      cases hres
      rcases maybeActiveWorker_cases _ hs1 with ⟨-, hres1⟩ | ⟨-, s2, hskips, hlast⟩
      · cases hres1
      · have hpol2 : s2.policy.isPerRequest = true := by rw [policy_skips hskips]; exact hpol
        exact busy_of_lastRound (hc.skips hskips) hpol2 hlast

/-- Under the per-request policy a fresh worker is busy once added: no
registry held it, and it joins its own flagged busy. -/
theorem busy_addUserWorker {s : WorkerPool} {k : Uuid} (hc : s.Consistent)
    (hpol : s.policy.isPerWorker = false) (hk : k ∉ s.userWorkers) (p : UserWorkerProfile) :
    (s.addUserWorker k p).Busy k := by
  have hfree : s.Busy k := fun sp r hr hmem =>
    hk (mem_userWorkers_of_pathOf (hc.registered sp k ⟨r, hr, KeyedSet.key_mem_keys hmem⟩))
  exact hfree.addUserWorker hpol k p

end WorkerPool

open WorkerPool

/-! ## Runs from `WorkerPool::new` -/

/-- What every state a per-request pool reaches satisfies. -/
structure PerRequestState (oneshot : Bool) (s : WorkerPool) : Prop where
  consistent : s.Consistent
  policy : s.policy = .perRequest oneshot

theorem PerRequestState.step {oneshot : Bool} {s s' : WorkerPool} {op : PoolOp}
    (h : PerRequestState oneshot s) (hs : guarded FreshCreated step s op = some s') :
    PerRequestState oneshot s' := by
  obtain ⟨hfresh, hstep⟩ := guarded_eq_some hs
  exact ⟨h.consistent.step hfresh hstep, (policy_step hstep).trans h.policy⟩

theorem perRequestState_of_exec {oneshot : Bool} {maxParallelism : Nat} {ops : List PoolOp}
    {s : WorkerPool}
    (h : exec (guarded FreshCreated step) (new (.perRequest oneshot) maxParallelism) ops = some s) :
    PerRequestState oneshot s :=
  exec_preserves (fun _ _ _ hI hs => hI.step hs) ops _ s
    ⟨consistent_new _ _, rfl⟩ h

/-- A hand-out leaves its worker busy. -/
theorem busy_of_handOut {oneshot : Bool} {s s' : WorkerPool} {op : PoolOp} {k : Uuid}
    (h : PerRequestState oneshot s) (hk : s.handOut op = some k)
    (hs : guarded FreshCreated step s op = some s') : s'.Busy k := by
  obtain ⟨hfresh, hstep⟩ := guarded_eq_some hs
  have hpol : s.policy.isPerWorker = false := by rw [h.policy]; rfl
  cases op with
  | create sp forceCreate =>
      obtain ⟨⟨s1, o⟩, h1, hkey⟩ := Option.bind_eq_some_iff.1 hk
      obtain ⟨⟨s2, o2⟩, h2, rfl⟩ := Option.map_eq_some_iff.1 hstep
      rw [h1, Option.some.injEq] at h2
      cases h2
      cases hkey
      exact busy_of_createUserWorker h.consistent (by rw [h.policy]; rfl) h1
  | created key p =>
      cases hk
      cases hstep
      exact busy_addUserWorker h.consistent hpol (of_decide_eq_true hfresh) p
  | idle key => cases hk
  | shutdown key => cases hk
  | raiseRetired key => cases hk
  | relayout sp ws => cases hk

/-- The run rule for busy: operations other than `idle k` keep `k` busy. -/
theorem busy_exec {oneshot : Bool} {s s' : WorkerPool} {ops : List PoolOp} {k : Uuid}
    (h : PerRequestState oneshot s) (hb : s.Busy k) (hops : ∀ op ∈ ops, op ≠ .idle k)
    (hrun : exec (guarded FreshCreated step) s ops = some s') : s'.Busy k := by
  have hinv := exec_preserves_on
    (I := fun t => PerRequestState oneshot t ∧ t.Busy k) (P := fun op => op ≠ .idle k)
    (fun t op t' hop hI ht => by
      obtain ⟨hfresh, hstep⟩ := guarded_eq_some ht
      have hpol : t.policy.isPerWorker = false := by rw [hI.1.policy]; rfl
      exact ⟨hI.1.step ht, hI.2.step hpol hop hstep⟩)
    ops s s' hops ⟨h, hb⟩ hrun
  exact hinv.2

/-- Every profile of a run from `WorkerPool::new` came from a `Created`
message of the run. -/
theorem created_of_mem_userWorkers :
    ∀ (ops : List PoolOp) {s s' : WorkerPool} {k : Uuid},
      exec (guarded FreshCreated step) s ops = some s' → k ∈ s'.userWorkers →
      k ∈ s.userWorkers ∨ ∃ p, PoolOp.created k p ∈ ops
  | [], s, s', k, hrun, hk => by
      simp only [exec_nil, Option.some.injEq] at hrun
      exact Or.inl (hrun ▸ hk)
  | op :: ops, s, s', k, hrun, hk => by
      simp only [exec_cons, Option.bind_eq_some_iff] at hrun
      obtain ⟨t, ht, hrest⟩ := hrun
      rcases created_of_mem_userWorkers ops hrest hk with hkt | ⟨p, hp⟩
      · rcases mem_of_mem_userWorkers_step (guarded_eq_some ht).2 hkt with hks | ⟨p, rfl⟩
        · exact Or.inl hks
        · exact Or.inr ⟨p, List.mem_cons_self⟩
      · exact Or.inr ⟨p, List.mem_cons_of_mem op hp⟩

/-- A worker handed out by operation `i` was created by an operation up to
`i`. -/
theorem created_of_handOut {oneshot : Bool} {maxParallelism : Nat} {ops : List PoolOp}
    {s : WorkerPool} {i : Nat} {op : PoolOp} {k : Uuid}
    (hrun : exec (guarded FreshCreated step) (new (.perRequest oneshot) maxParallelism)
      (ops.take i) = some s)
    (hop : ops[i]? = some op) (hk : s.handOut op = some k) :
    ∃ l p, l ≤ i ∧ ops[l]? = some (.created k p) := by
  cases op with
  | create sp forceCreate =>
      obtain ⟨⟨s1, o⟩, h1, hkey⟩ := Option.bind_eq_some_iff.1 hk
      cases hkey
      have hmem := mem_userWorkers_of_createUserWorker h1
      rcases created_of_mem_userWorkers _ hrun hmem with hnew | ⟨p, hp⟩
      · cases hnew
      · obtain ⟨l, hl⟩ := List.mem_iff_getElem?.1 hp
        rw [List.getElem?_take] at hl
        by_cases hli : l < i
        · rw [if_pos hli] at hl
          exact ⟨l, p, by omega, hl⟩
        · rw [if_neg hli] at hl
          cases hl
  | created key p =>
      cases hk
      exact ⟨i, p, le_refl i, hop⟩
  | idle key => cases hk
  | shutdown key => cases hk
  | raiseRetired key => cases hk
  | relayout sp ws => cases hk

/-- Distinct `Created` keys: two positions creating the same key are one. -/
theorem eq_of_created {ops : List PoolOp} (hfresh : (ops.filterMap PoolOp.createdKey).Nodup)
    {k : Uuid} {l j : Nat} {p q : UserWorkerProfile} (hl : ops[l]? = some (.created k p))
    (hj : ops[j]? = some (.created k q)) : l = j := by
  induction ops generalizing l j with
  | nil => cases hl
  | cons op ops ih =>
      cases l with
      | zero =>
          cases j with
          | zero => rfl
          | succ j =>
              simp only [List.getElem?_cons_zero, List.getElem?_cons_succ, Option.some.injEq]
                at hl hj
              subst hl
              have hmem : k ∈ ops.filterMap PoolOp.createdKey :=
                List.mem_filterMap.2 ⟨_, List.mem_of_getElem? hj, rfl⟩
              simp only [List.filterMap_cons, PoolOp.createdKey, List.nodup_cons] at hfresh
              exact absurd hmem hfresh.1
      | succ l =>
          cases j with
          | zero =>
              simp only [List.getElem?_cons_zero, List.getElem?_cons_succ, Option.some.injEq]
                at hl hj
              subst hj
              have hmem : k ∈ ops.filterMap PoolOp.createdKey :=
                List.mem_filterMap.2 ⟨_, List.mem_of_getElem? hl, rfl⟩
              simp only [List.filterMap_cons, PoolOp.createdKey, List.nodup_cons] at hfresh
              exact absurd hmem hfresh.1
          | succ j =>
              have hfresh' : (ops.filterMap PoolOp.createdKey).Nodup := by
                rw [List.filterMap_cons] at hfresh
                split at hfresh
                · exact hfresh
                · exact (List.nodup_cons.1 hfresh).2
              rw [ih hfresh' hl hj]

/-- Operation `i` of the run of `ops` from `s` hands out `k`. -/
def HandsOut (s : WorkerPool) (ops : List PoolOp) (i : Nat) (k : Uuid) : Prop :=
  ∃ t op, exec (guarded FreshCreated step) s (ops.take i) = some t ∧ ops[i]? = some op ∧
    t.handOut op = some k

theorem handOut_exclusive (oneshot : Bool) (maxParallelism : Nat) (ops : List PoolOp)
    (hfresh : (ops.filterMap PoolOp.createdKey).Nodup) (k : Uuid) (i j : Nat) (hij : i < j)
    (hi : HandsOut (new (.perRequest oneshot) maxParallelism) ops i k)
    (hj : HandsOut (new (.perRequest oneshot) maxParallelism) ops j k) :
    ∃ l, i < l ∧ l < j ∧ ops[l]? = some (.idle k) := by
  by_contra hno
  obtain ⟨ti, opi, hti, hopi, hki⟩ := hi
  obtain ⟨tj, opj, htj, hopj, hkj⟩ := hj
  obtain ⟨t1, ht1, hwindow⟩ : ∃ t1, exec (guarded FreshCreated step)
      (new (.perRequest oneshot) maxParallelism) (ops.take (i + 1)) = some t1 ∧
      exec (guarded FreshCreated step) t1 ((ops.drop (i + 1)).take (j - (i + 1))) = some tj := by
    have hsplit := @exec_take_add _ _ (guarded FreshCreated step)
      (new (.perRequest oneshot) maxParallelism) ops (i + 1) (j - (i + 1))
    rw [show i + 1 + (j - (i + 1)) = j by omega, htj] at hsplit
    exact Option.bind_eq_some_iff.1 hsplit.symm
  have hstep : guarded FreshCreated step ti opi = some t1 := by
    rw [exec_take_succ hopi, hti] at ht1
    exact ht1
  have hbusy1 : t1.Busy k := busy_of_handOut (perRequestState_of_exec hti) hki hstep
  have hbusyj : tj.Busy k := by
    refine busy_exec (perRequestState_of_exec ht1) hbusy1 (fun op hop he => ?_) hwindow
    obtain ⟨l, hl1, hl2, hl⟩ := exists_of_mem_take_drop hop
    exact hno ⟨l, by omega, by omega, he ▸ hl⟩
  cases opj with
  | create sp forceCreate =>
      obtain ⟨⟨s1, o⟩, h1, hkey⟩ := Option.bind_eq_some_iff.1 hkj
      cases hkey
      exact not_busy_of_createUserWorker h1 hbusyj
  | created key q =>
      cases hkj
      obtain ⟨l, p, hli, hl⟩ := created_of_handOut hti hopi hki
      have hlj := eq_of_created hfresh hl hopj
      omega
  | idle key => cases hkj
  | shutdown key => cases hkj
  | raiseRetired key => cases hkj
  | relayout sp ws => cases hkj

end EdgeRuntime.Pool
