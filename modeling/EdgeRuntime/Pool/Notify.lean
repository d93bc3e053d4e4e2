import EdgeRuntime.Pool.WorkerPool

/-!
# The notify channel of a registry and the wait fences

A create request that `maybe_active_worker` cannot serve parks in the wait
fence of `create_user_worker` (crates/base/src/rt_worker/worker_pool.rs).
The fence's future clones the receiver of its path's `notify_pair` before it
is spawned.  When first polled it tries the semaphore once (and, with
`force_create`, goes on without a permit); otherwise it loops on
`recv_async` against a timeout.  A `Some(_)` message makes it resend the
request to the pool, a `None` makes it try the semaphore again.  The future
drops its receiver when it completes.

The channel is fed by `mark_idle` (a `Some(key)`), by `retire` (one `None`
per live receiver, `receiver_count()`), and by `shutdown` (one `None`
more).  The registry keeps a receiver of its own that nothing reads.

The model puts the fences next to the pool: fence `i` is the `i`-th create
request that parked, and it keeps its place in the list when it completes,
with the flow it handed to the creation task.

## Main results

* `receivers_accounted`: in every run, the channel of a path has one
  receiver per live fence of the path, and the registry's own.
* `shutdown_leaves_stale`: so every `shutdown` leaves the channel of the
  worker's path with at least two messages more than there are create
  requests in flight on it.
-/

namespace EdgeRuntime.Pool

open EdgeRuntime.Verified EdgeRuntime.Verified.Machine

/-- `FlowAfterFence`, without the reply sender it carries. -/
inductive FlowAfterFence
  | stop
  | resend
  /-- `Create(permit, tx)`, with a semaphore permit or without one. -/
  | create (permit : Bool)
  deriving DecidableEq, Repr

namespace ActiveWorkerRegistry

/-- The first poll of a wait fence: `sem.try_acquire_owned()`, then
`force_create`; `none` means the fence goes on to its loop. -/
def pollFence (r : ActiveWorkerRegistry) (forceCreate : Bool) :
    ActiveWorkerRegistry × Option FlowAfterFence :=
  if 0 < r.permits then ({ r with permits := r.permits - 1 }, some (.create true))
  else if forceCreate then (r, some (.create false))
  else (r, none)

/-- A turn of the fence's loop in which `notify_rx.recv_async()` yields the
oldest message; there is no such turn while the channel is empty. -/
def recvFence (r : ActiveWorkerRegistry) : Option (ActiveWorkerRegistry × Option FlowAfterFence) :=
  match r.notify with
  | [] => none
  | some _ :: rest => some ({ r with notify := rest }, some .resend)
  | none :: rest =>
      if 0 < r.permits then
        some ({ r with notify := rest, permits := r.permits - 1 }, some (.create true))
      else some ({ r with notify := rest }, none)

/-- The future of a fence completes and drops its receiver. -/
def dropReceiver (r : ActiveWorkerRegistry) : ActiveWorkerRegistry :=
  { r with receivers := r.receivers - 1 }

/-! ## Only a fence changes the number of receivers -/

@[simp] theorem receivers_pollFence (r : ActiveWorkerRegistry) (forceCreate : Bool) :
    (r.pollFence forceCreate).1.receivers = r.receivers := by
  unfold pollFence
  split
  · rfl
  · split <;> rfl

theorem receivers_recvFence {r : ActiveWorkerRegistry}
    {res : ActiveWorkerRegistry × Option FlowAfterFence} (h : r.recvFence = some res) :
    res.1.receivers = r.receivers := by
  unfold recvFence at h
  split at h
  · cases h
  · cases h
    rfl
  · split at h <;>
    · cases h
      rfl

@[simp] theorem receivers_markIdle (r : ActiveWorkerRegistry) (key : Uuid)
    (policy : SupervisorPolicy) : (r.markIdle key policy).receivers = r.receivers := by
  unfold markIdle
  split
  · rfl
  · split
    · split <;> rfl
    · rfl

@[simp] theorem receivers_markUsedAndTryAdvance (r : ActiveWorkerRegistry)
    (policy : SupervisorPolicy) : (r.markUsedAndTryAdvance policy).1.receivers = r.receivers := by
  unfold markUsedAndTryAdvance
  split
  · rfl
  · split <;> rfl

end ActiveWorkerRegistry

namespace WorkerPool

/-- `receiver_count()` of the channel of `sp`: that of its registry, or the
registry's own receiver in the one `or_insert_with` makes. -/
def receiversAt (s : WorkerPool) (sp : String) : Nat := (s.registryOrNew sp).receivers

theorem receiversAt_of_lookup {s : WorkerPool} {sp : String} {r : ActiveWorkerRegistry}
    (hr : s.activeWorkers.lookup sp = some r) : s.receiversAt sp = r.receivers := by
  simp [receiversAt, registryOrNew, hr]

theorem receiversAt_setRegistry (s : WorkerPool) (sp sp' : String) (r : ActiveWorkerRegistry) :
    (s.setRegistry sp r).receiversAt sp' = if sp' = sp then r.receivers else s.receiversAt sp' := by
  unfold receiversAt registryOrNew
  rw [lookup_setRegistry]
  split <;> rfl

/-- The operation leaves the receivers of every channel as they were. -/
def KeepsReceivers (s s' : WorkerPool) : Prop := ∀ sp, s'.receiversAt sp = s.receiversAt sp

theorem KeepsReceivers.trans {s s' s'' : WorkerPool} (h : KeepsReceivers s s')
    (h' : KeepsReceivers s' s'') : KeepsReceivers s s'' := fun sp => (h' sp).trans (h sp)

/-- Storing back a registry with the receivers it had. -/
theorem keepsReceivers_setRegistry {s : WorkerPool} {sp : String} {r r' : ActiveWorkerRegistry}
    (hr : s.activeWorkers.lookup sp = some r) (h : r'.receivers = r.receivers) :
    KeepsReceivers s (s.setRegistry sp r') := by
  intro sp'
  rw [receiversAt_setRegistry]
  split
  · rename_i hsp
    rw [hsp, h, receiversAt_of_lookup hr]
  · rfl

theorem keepsReceivers_retire {s s' : WorkerPool} {key : Uuid} (hs : s.retire key = some s') :
    KeepsReceivers s s' := by
  unfold retire at hs
  split at hs
  · cases hs
    intro sp
    rfl
  · split at hs
    · cases hs
    · rename_i r hr
      split at hs <;>
      · cases hs
        exact keepsReceivers_setRegistry (s := s.setProfile key _) hr rfl

theorem keepsReceivers_advance {s : WorkerPool} {sp : String} {r : ActiveWorkerRegistry}
    (hr : s.activeWorkers.lookup sp = some r) : KeepsReceivers s (s.advance sp r).1 :=
  keepsReceivers_setRegistry hr (r.receivers_markUsedAndTryAdvance s.policy)

theorem keepsReceivers_skips {sp : String} {s s' : WorkerPool}
    (h : Relation.ReflTransGen (Skip sp) s s') : KeepsReceivers s s' := by
  induction h with
  | refl => exact fun _ => rfl
  | tail _ hstep ih =>
      obtain ⟨r, uuid, hr, -, -, hret⟩ := hstep
      exact ih.trans ((keepsReceivers_advance hr).trans (keepsReceivers_retire hret))

theorem keepsReceivers_maybeActiveWorker {fuel : Nat} {s s' : WorkerPool} {sp : String}
    {force : Bool} {o : Option Uuid} (hs : s.maybeActiveWorker fuel sp force = some (s', o)) :
    KeepsReceivers s s' := by
  rcases maybeActiveWorker_cases fuel hs with ⟨-, hres⟩ | ⟨-, s1, hskips, hlast⟩
  · cases hres
    exact fun _ => rfl
  · refine (keepsReceivers_skips hskips).trans ?_
    cases hlast with
    | noRegistry => exact fun _ => rfl
    | noWorker r hr => exact keepsReceivers_advance hr
    | handOut r uuid p hr => exact keepsReceivers_advance hr

/-- A parked request's fence holds one more receiver of its path's channel. -/
theorem receiversAt_parkFence (s : WorkerPool) (sp sp' : String) :
    (s.parkFence sp).receiversAt sp' = s.receiversAt sp' + if sp' = sp then 1 else 0 := by
  unfold parkFence
  rw [receiversAt_setRegistry]
  split
  · rename_i hsp
    rw [hsp]
    rfl
  · rfl

theorem receiversAt_createUserWorker {s s' : WorkerPool} {sp : String} {force : Bool}
    {o : Option Uuid} (hs : s.createUserWorker sp force = some (s', o)) (sp' : String) :
    s'.receiversAt sp' = s.receiversAt sp' + if o = none ∧ sp' = sp then 1 else 0 := by
  unfold createUserWorker at hs
  obtain ⟨⟨s1, o1⟩, hs1, hres⟩ := Option.map_eq_some_iff.1 hs
  have h1 := keepsReceivers_maybeActiveWorker hs1 sp'
  cases o1 with
  | some key =>
      cases hres
      simpa using h1
  | none =>
      cases hres
      rw [receiversAt_parkFence, h1]
      simp

theorem keepsReceivers_addUserWorker (s : WorkerPool) (key : Uuid) (p : UserWorkerProfile) :
    KeepsReceivers s (s.addUserWorker key p) := by
  intro sp
  by_cases hsp : sp = p.servicePath
  · subst hsp
    simp [receiversAt, registryOrNew, addUserWorker, AList.lookup_insert]
  · simp [receiversAt, registryOrNew, addUserWorker, AList.lookup_insert_ne hsp]

theorem keepsReceivers_idle (s : WorkerPool) (key : Uuid) : KeepsReceivers s (s.idle key) := by
  unfold idle
  split
  · exact fun _ => rfl
  · split
    · exact fun _ => rfl
    · rename_i r hr
      exact keepsReceivers_setRegistry hr (r.receivers_markIdle key s.policy)

theorem keepsReceivers_shutdown {s s' : WorkerPool} {key : Uuid} (hs : s.shutdown key = some s') :
    KeepsReceivers s s' := by
  unfold shutdown at hs
  obtain ⟨s1, hs1, rfl⟩ := Option.map_eq_some_iff.1 hs
  refine (keepsReceivers_retire hs1).trans ?_
  unfold shutdownRetired
  split
  · exact fun _ => rfl
  · split
    · exact fun _ => rfl
    · rename_i r hr
      exact keepsReceivers_setRegistry (s := s1) hr rfl

theorem keepsReceivers_raiseRetired (s : WorkerPool) (key : Uuid) :
    KeepsReceivers s (s.raiseRetired key) := by
  unfold raiseRetired
  split
  · exact fun _ => rfl
  · exact fun _ => rfl

theorem keepsReceivers_relayout (s : WorkerPool) (sp : String) (ws : List WorkerId) :
    KeepsReceivers s (s.relayout sp ws) := by
  unfold relayout
  split
  · exact fun _ => rfl
  · rename_i r hr
    exact keepsReceivers_setRegistry hr rfl

/-! ## What `shutdown` sends -/

/-- `retire` of a worker with a profile and a registry: one `None` per
receiver of the channel of its path. -/
theorem retire_sends {s s' : WorkerPool} {key : Uuid} {p : UserWorkerProfile}
    {r : ActiveWorkerRegistry} (hp : s.userWorkers.lookup key = some p)
    (hr : s.activeWorkers.lookup p.servicePath = some r) (hs : s.retire key = some s') :
    s'.userWorkers.lookup key = some { p with permit := false } ∧
      ∃ r', s'.activeWorkers.lookup p.servicePath = some r' ∧
        r'.notify = r.notify ++ List.replicate r.receivers none := by
  unfold retire at hs
  rw [hp] at hs
  simp only [hr] at hs
  split at hs <;>
  · cases hs
    exact ⟨by simp [setProfile, setRegistry, AList.lookup_insert], _,
      lookup_setRegistry.trans (if_pos rfl), rfl⟩

/-- `shutdown` of a worker with a profile: `retire` sends one `None` per
receiver of the channel of its path, and `shutdown` one more. -/
theorem shutdown_sends {s s' : WorkerPool} {key : Uuid} {p : UserWorkerProfile}
    (hp : s.userWorkers.lookup key = some p) (hs : s.shutdown key = some s') :
    ∃ r r', s.activeWorkers.lookup p.servicePath = some r ∧
      s'.activeWorkers.lookup p.servicePath = some r' ∧
      r'.notify = r.notify ++ List.replicate r.receivers none ++ [none] := by
  unfold shutdown at hs
  obtain ⟨s1, hs1, rfl⟩ := Option.map_eq_some_iff.1 hs
  cases hr : s.activeWorkers.lookup p.servicePath with
  | none =>
      unfold retire at hs1
      rw [hp] at hs1
      simp only [hr] at hs1
      cases hs1
  | some r =>
      obtain ⟨hp1, r1, hr1, hnotify⟩ := retire_sends hp hr hs1
      refine ⟨r, r1.send none, rfl, ?_, by rw [ActiveWorkerRegistry.send, hnotify]⟩
      simp [shutdownRetired, hp1, hr1, lookup_setRegistry]

end WorkerPool

/-- Where a wait fence is. -/
inductive FencePhase
  /-- Spawned, holding its receiver, not yet polled. -/
  | spawned
  /-- Blocked in its `select!` loop. -/
  | waiting
  /-- Completed with the flow it handed on; its receiver is dropped. -/
  | done (flow : FlowAfterFence)
  deriving DecidableEq, Repr

/-- The fence still holds its receiver. -/
def FencePhase.isLive : FencePhase → Bool
  | .done _ => false
  | _ => true

/-- The wait fence of a parked create request. -/
structure Fence where
  servicePath : String
  forceCreate : Bool
  phase : FencePhase
  deriving DecidableEq, Repr

/-- The pool together with the wait fences of its create requests. -/
structure FencedPool where
  pool : WorkerPool
  fences : List Fence

/-- An operation of the pool, or a turn of a wait fence. -/
inductive FenceOp
  | pool (op : PoolOp)
  /-- The first poll of fence `i`. -/
  | poll (i : Nat)
  /-- `recv_async` yields to fence `i`. -/
  | recv (i : Nat)
  /-- The timeout of fence `i` fires. -/
  | timeout (i : Nat)

namespace FencedPool

def new (policy : SupervisorPolicy) (maxParallelism : Nat) : FencedPool :=
  ⟨WorkerPool.new policy maxParallelism, []⟩

/-- The live fences of the path `sp`. -/
def fencesAt (st : FencedPool) (sp : String) : Nat :=
  st.fences.countP fun f => f.servicePath = sp ∧ f.phase.isLive

/-- A pool operation; a creation that finds no worker spawns its fence, with
the `force_create` the fence reads. -/
def poolStep (st : FencedPool) (op : PoolOp) : Option FencedPool :=
  match op with
  | .create sp forceCreate =>
      (st.pool.createUserWorker sp forceCreate).map fun res =>
        match res.2 with
        | some _ => { st with pool := res.1 }
        | none => ⟨res.1, st.fences ++ [⟨sp, !st.pool.policy.isOneshot && forceCreate, .spawned⟩]⟩
  | op => (st.pool.step op).map fun pool => { st with pool := pool }

/-- A turn of fence `i`, which must be in `phase`: `turn` is what it does to
the registry of its path, with the flow it completes with, if any. -/
def fenceTurn (st : FencedPool) (i : Nat) (phase : FencePhase)
    (turn : Fence → ActiveWorkerRegistry →
      Option (ActiveWorkerRegistry × Option FlowAfterFence)) : Option FencedPool :=
  match st.fences[i]? with
  | none => none
  | some f =>
      if f.phase = phase then
        match st.pool.activeWorkers.lookup f.servicePath with
        | none => none
        | some r =>
            (turn f r).map fun res =>
              match res.2 with
              | some flow => ⟨st.pool.setRegistry f.servicePath res.1.dropReceiver,
                  st.fences.set i { f with phase := .done flow }⟩
              | none => ⟨st.pool.setRegistry f.servicePath res.1,
                  st.fences.set i { f with phase := .waiting }⟩
      else none

/-- One operation of the pool or turn of a fence. -/
def step (st : FencedPool) : FenceOp → Option FencedPool
  | .pool op => st.poolStep op
  | .poll i => st.fenceTurn i .spawned fun f r => some (r.pollFence f.forceCreate)
  | .recv i => st.fenceTurn i .waiting fun _ r => r.recvFence
  | .timeout i => st.fenceTurn i .waiting fun _ r => some (r, some .stop)

/-! ## The receivers of each channel -/

/-- Each channel has one receiver per live fence of its path, and the
registry's own. -/
def Accounted (st : FencedPool) : Prop :=
  ∀ sp, st.pool.receiversAt sp = 1 + st.fencesAt sp

theorem accounted_new (policy : SupervisorPolicy) (maxParallelism : Nat) :
    (new policy maxParallelism).Accounted := fun _ => rfl

theorem fencesAt_append (st : FencedPool) (pool : WorkerPool) (f : Fence) (sp : String) :
    (⟨pool, st.fences ++ [f]⟩ : FencedPool).fencesAt sp =
      st.fencesAt sp + if f.servicePath = sp ∧ f.phase.isLive then 1 else 0 := by
  simp [fencesAt, List.countP_append]

/-- A fence changing phase in place. -/
theorem fencesAt_set {st : FencedPool} {i : Nat} {f : Fence} (hf : st.fences[i]? = some f)
    (pool : WorkerPool) (phase : FencePhase) (sp : String) :
    (⟨pool, st.fences.set i { f with phase := phase }⟩ : FencedPool).fencesAt sp +
        (if f.servicePath = sp ∧ f.phase.isLive then 1 else 0) =
      st.fencesAt sp + if f.servicePath = sp ∧ phase.isLive then 1 else 0 := by
  obtain ⟨hi, rfl⟩ := List.getElem?_eq_some_iff.1 hf
  have hpos : (if st.fences[i].servicePath = sp ∧ st.fences[i].phase.isLive then 1 else 0) ≤
      st.fencesAt sp := by
    split
    · rename_i hlive
      exact List.countP_pos_iff.2 ⟨_, List.getElem_mem hi, by simpa using hlive⟩
    · exact Nat.zero_le _
  simp only [fencesAt, List.countP_set hi] at hpos ⊢
  simp only [decide_eq_true_eq] at hpos ⊢
  omega

theorem Accounted.poolStep {st st' : FencedPool} (h : st.Accounted) {op : PoolOp}
    (hs : st.poolStep op = some st') : st'.Accounted := by
  unfold FencedPool.poolStep at hs
  cases op with
  | create sp force =>
      obtain ⟨⟨s1, o⟩, hs1, rfl⟩ := Option.map_eq_some_iff.1 hs
      intro sp'
      have hrecv := WorkerPool.receiversAt_createUserWorker hs1 sp'
      cases o with
      | some key =>
          simp only [reduceCtorEq, false_and, if_false, Nat.add_zero] at hrecv
          rw [hrecv]
          exact h sp'
      | none =>
          show s1.receiversAt sp' = 1 + (⟨s1, st.fences ++ [_]⟩ : FencedPool).fencesAt sp'
          rw [fencesAt_append, hrecv, h sp']
          by_cases hsp : sp' = sp
          · subst hsp
            simp [FencePhase.isLive]
            omega
          · simp [hsp, Ne.symm hsp]
  | created key p =>
      obtain ⟨s1, hs1, rfl⟩ := Option.map_eq_some_iff.1 hs
      cases hs1
      intro sp
      rw [WorkerPool.keepsReceivers_addUserWorker]
      exact h sp
  | idle key =>
      obtain ⟨s1, hs1, rfl⟩ := Option.map_eq_some_iff.1 hs
      cases hs1
      intro sp
      rw [WorkerPool.keepsReceivers_idle]
      exact h sp
  | shutdown key =>
      obtain ⟨s1, hs1, rfl⟩ := Option.map_eq_some_iff.1 hs
      intro sp
      rw [WorkerPool.keepsReceivers_shutdown hs1]
      exact h sp
  | raiseRetired key =>
      obtain ⟨s1, hs1, rfl⟩ := Option.map_eq_some_iff.1 hs
      cases hs1
      intro sp
      rw [WorkerPool.keepsReceivers_raiseRetired]
      exact h sp
  | relayout sp ws =>
      obtain ⟨s1, hs1, rfl⟩ := Option.map_eq_some_iff.1 hs
      cases hs1
      intro sp'
      rw [WorkerPool.keepsReceivers_relayout]
      exact h sp'

/-- Fence `i` moves to `phase'`, and the registry of its path is stored back
with one receiver fewer when the fence has completed. -/
theorem Accounted.setFence {st : FencedPool} (h : st.Accounted) {i : Nat} {f : Fence}
    (hf : st.fences[i]? = some f) (hlive : f.phase.isLive = true) {r : ActiveWorkerRegistry}
    (hr : st.pool.activeWorkers.lookup f.servicePath = some r) (r' : ActiveWorkerRegistry)
    (phase' : FencePhase) (hrecv : r'.receivers + (if phase'.isLive then 0 else 1) = r.receivers) :
    (⟨st.pool.setRegistry f.servicePath r', st.fences.set i { f with phase := phase' }⟩ :
      FencedPool).Accounted := by
  intro sp
  have hset := fencesAt_set hf (st.pool.setRegistry f.servicePath r') phase' sp
  rw [WorkerPool.receiversAt_setRegistry]
  by_cases hsp : sp = f.servicePath
  · subst hsp
    have hbefore := h f.servicePath
    rw [WorkerPool.receiversAt_of_lookup hr] at hbefore
    rw [if_pos rfl]
    simp only [hlive, and_self, if_true, true_and] at hset
    split at hrecv <;>
    · rename_i hphase
      simp only [hphase, if_true, if_false, Bool.false_eq_true] at hset
      omega
  · have hne : ¬f.servicePath = sp := Ne.symm hsp
    simp only [hne, false_and, if_false, Nat.add_zero] at hset
    rw [if_neg hsp, hset]
    exact h sp

/-- A turn that leaves the registry's receivers to the fence: it drops its
own when it completes. -/
theorem Accounted.fenceTurn {st st' : FencedPool} (h : st.Accounted) {i : Nat}
    {phase : FencePhase} (hphase : phase.isLive = true)
    {turn : Fence → ActiveWorkerRegistry → Option (ActiveWorkerRegistry × Option FlowAfterFence)}
    (hturn : ∀ f r res, turn f r = some res → res.1.receivers = r.receivers)
    (hs : st.fenceTurn i phase turn = some st') : st'.Accounted := by
  unfold FencedPool.fenceTurn at hs
  split at hs
  · cases hs
  · rename_i f hf
    split at hs
    · rename_i hfphase
      have hlive : f.phase.isLive = true := hfphase ▸ hphase
      split at hs
      · cases hs
      · rename_i r hr
        obtain ⟨⟨r', flow⟩, hres, rfl⟩ := Option.map_eq_some_iff.1 hs
        have hrecv : r'.receivers = r.receivers := hturn f r _ hres
        have hpos : 1 ≤ r.receivers := by
          rw [← WorkerPool.receiversAt_of_lookup hr, h]
          omega
        cases flow with
        | some flow =>
            refine h.setFence hf hlive hr r'.dropReceiver (.done flow) ?_
            simp only [ActiveWorkerRegistry.dropReceiver, FencePhase.isLive, Bool.false_eq_true,
              if_false]
            omega
        | none => exact h.setFence hf hlive hr r' .waiting (by simpa [FencePhase.isLive] using hrecv)
    · cases hs

theorem Accounted.step {st st' : FencedPool} (h : st.Accounted) {op : FenceOp}
    (hs : st.step op = some st') : st'.Accounted := by
  cases op with
  | pool op => exact h.poolStep hs
  | poll i =>
      refine h.fenceTurn rfl (fun f r res hres => ?_) hs
      cases hres
      exact r.receivers_pollFence f.forceCreate
  | recv i => exact h.fenceTurn rfl (fun _ _ _ hres => ActiveWorkerRegistry.receivers_recvFence hres) hs
  | timeout i =>
      refine h.fenceTurn rfl (fun _ _ _ hres => ?_) hs
      cases hres
      rfl

theorem accounted_inductive (policy : SupervisorPolicy) (maxParallelism : Nat) :
    Inductive step (new policy maxParallelism) Accounted where
  init := accounted_new policy maxParallelism
  step _ _ _ h hs := h.step hs

/-- In every run, `receiver_count()` of the channel of a path is one more
than the create requests in flight on it. -/
theorem receivers_accounted (policy : SupervisorPolicy) (maxParallelism : Nat)
    (ops : List FenceOp) {st : FencedPool}
    (hrun : exec step (new policy maxParallelism) ops = some st) (sp : String) :
    st.pool.receiversAt sp = 1 + st.fencesAt sp :=
  (accounted_inductive policy maxParallelism).reachable ⟨ops, hrun⟩ sp

/-- A create request parks on a path without workers: its fence holds the
second receiver of the channel. -/
theorem receivers_accounted_parked :
    ∃ st, exec step (new (.perRequest false) 1) [.pool (.create "hello" false)] = some st ∧
      st.pool.receiversAt "hello" = 2 ∧ st.pool.receiversAt "hello" = 1 + st.fencesAt "hello" := by
  refine ⟨_, rfl, rfl, ?_⟩
  exact receivers_accounted (.perRequest false) 1 [.pool (.create "hello" false)] rfl "hello"

/-! ## Messages no create request receives -/

/-- In every run of the pool and its wait fences, `shutdown` of a worker
leaves the channel of its path holding at least two messages more than the
create requests in flight on that path: one `None` for the registry's own
receiver, and the one `shutdown` adds. -/
theorem shutdown_leaves_stale (policy : SupervisorPolicy) (maxParallelism : Nat)
    (ops : List FenceOp) {st st' : FencedPool}
    (hrun : exec step (new policy maxParallelism) ops = some st) {k : Uuid}
    {p : UserWorkerProfile} (hp : st.pool.userWorkers.lookup k = some p)
    (hshut : st.step (.pool (.shutdown k)) = some st') :
    ∃ r, st'.pool.activeWorkers.lookup p.servicePath = some r ∧
      st'.fencesAt p.servicePath + 2 ≤ r.notify.length := by
  have hacc := (accounted_inductive policy maxParallelism).reachable ⟨ops, hrun⟩
  obtain ⟨s', hs', rfl⟩ := Option.map_eq_some_iff.1 hshut
  obtain ⟨r, r', hr, hr', hnotify⟩ := WorkerPool.shutdown_sends hp hs'
  have hrecv : r.receivers = 1 + st.fencesAt p.servicePath := by
    rw [← WorkerPool.receiversAt_of_lookup hr]
    exact hacc _
  refine ⟨r', hr', ?_⟩
  show st.fencesAt p.servicePath + 2 ≤ r'.notify.length
  rw [hnotify, List.length_append, List.length_append, List.length_replicate, hrecv]
  simp only [List.length_singleton]
  omega

/-- Under the per-request policy with one permit: a fence creates worker 1,
which ends a request while no create request waits, so its `Some(1)` stays in
the channel; the next request takes worker 1, and the one after it parks,
finds no permit, receives that `Some(1)` and resends though worker 1 is
busy.  Shutting worker 1 down then leaves two `None`s that no fence will
receive. -/
theorem shutdown_leaves_stale_resend :
    ∃ st st', exec step (new (.perRequest false) 1)
        [.pool (.create "hello" false), .poll 0, .pool (.created 1 ⟨"hello", true, 0, false⟩),
          .pool (.idle 1), .pool (.create "hello" false), .pool (.create "hello" false),
          .poll 1, .recv 1] = some st ∧
      st.fences = [⟨"hello", false, .done (.create true)⟩, ⟨"hello", false, .done .resend⟩] ∧
      st.step (.pool (.shutdown 1)) = some st' ∧
      ∃ r, st'.pool.activeWorkers.lookup "hello" = some r ∧ st'.fencesAt "hello" + 2 ≤ r.notify.length := by
  refine ⟨_, _, rfl, rfl, rfl, ?_⟩
  exact shutdown_leaves_stale (.perRequest false) 1
    [.pool (.create "hello" false), .poll 0, .pool (.created 1 ⟨"hello", true, 0, false⟩),
      .pool (.idle 1), .pool (.create "hello" false), .pool (.create "hello" false),
      .poll 1, .recv 1] rfl (k := 1) (p := ⟨"hello", true, 1, false⟩) rfl rfl

end FencedPool

end EdgeRuntime.Pool
