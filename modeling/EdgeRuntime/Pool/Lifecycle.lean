import EdgeRuntime.Pool.WorkerPool

/-!
# The pool loop and the lifetime of a worker entry

`create_user_worker_pool` (crates/base/src/rt_worker/worker_ctx.rs) runs the
pool in one task, a loop over a `select!` of two branches: the inbound
termination token, enabled until termination has been requested, and the
`UserWorkerMsgs` channel.  The pool holds a sender of that channel itself
(`worker_pool_msgs_tx`), so `recv` never yields `None` while the loop runs and
that arm is left out.  The loop breaks, cancelling the outbound token, when
termination has been requested and `user_workers` is empty: right away if it
is empty when the token fires, and otherwise after the `Shutdown` that
empties it.

Two messages concern the lifetime of a worker `k`.  `Created(k, profile)` is
sent by the task `create_user_worker` spawns, once `create_worker` has seen
the worker boot; `Shutdown(k)` is sent by the scope guard of `Worker::start`
on the worker's own thread, when the worker ends.  Nothing orders the two
sends after the boot, and the loop handles each on its own: `shutdown` of a
key without a profile does nothing, and `add_user_worker` inserts whatever it
is given.

Besides the loop's own turns, a run interleaves what other tasks do to the
state the loop owns: a supervisor raising its worker's `is_retired` flag, and
a registry's hash set changing its layout.

## Main results

* `mem_userWorkers_step`: no turn but `Shutdown(k)` takes `k`'s profile away,
  and a loop that still holds a profile does not stop.
* `shutdown_before_created_leaks`: once `Shutdown(k)` has been processed
  before `Created(k, _)`, `k` keeps a profile and the loop never stops, for
  every run that goes on without another `Shutdown(k)`.
-/

namespace EdgeRuntime.Pool

open EdgeRuntime.Verified EdgeRuntime.Verified.Machine

/-- `UserWorkerMsgs`, with the parts of each payload the pool reads. -/
inductive UserWorkerMsgs
  /-- `Create(worker_options, tx)`: the options' service path and
  `force_create`. -/
  | create (servicePath : String) (forceCreate : Bool)
  | created (key : Uuid) (profile : UserWorkerProfile)
  | sendRequest (key : Uuid)
  | idle (key : Uuid)
  | shutdown (key : Uuid)
  deriving DecidableEq

/-- What the loop's `select!` picks, and what other tasks do in between. -/
inductive LoopEvent
  /-- `token.inbound` is cancelled. -/
  | terminate
  /-- `user_worker_msgs_rx.recv()` yields a message. -/
  | recv (msg : UserWorkerMsgs)
  /-- A supervisor's scope guard raises its worker's `is_retired`. -/
  | retired (key : Uuid)
  /-- The worker set of a registry changes its iteration order. -/
  | relayout (servicePath : String) (workers : List WorkerId)
  deriving DecidableEq

/-- The state of the loop task. -/
structure PoolLoop where
  pool : WorkerPool
  terminationRequested : Bool
  /-- The loop has cancelled `token.outbound` and broken out. -/
  stopped : Bool

namespace PoolLoop

/-- The loop as the task starts it. -/
def new (policy : SupervisorPolicy) (maxParallelism : Nat) : PoolLoop where
  pool := WorkerPool.new policy maxParallelism
  terminationRequested := false
  stopped := false

/-- The pool method the arm of a message calls; `send_request` takes `&self`
and only spawns the request's task. -/
def handle (s : WorkerPool) : UserWorkerMsgs → Option WorkerPool
  | .create sp forceCreate => s.step (.create sp forceCreate)
  | .created key profile => s.step (.created key profile)
  | .sendRequest _ => some s
  | .idle key => s.step (.idle key)
  | .shutdown key => s.step (.shutdown key)

/-- One turn of the loop, or of another task.  A stopped loop takes no
turn, and the termination branch is disabled once it has fired. -/
def step (st : PoolLoop) (e : LoopEvent) : Option PoolLoop :=
  if st.stopped then none
  else
    match e with
    | .terminate =>
        if st.terminationRequested then none
        else some { st with terminationRequested := true,
                            stopped := st.pool.userWorkers.keys.isEmpty }
    | .recv (.shutdown key) =>
        (handle st.pool (.shutdown key)).map fun pool =>
          { st with pool := pool,
                    stopped := st.terminationRequested && pool.userWorkers.keys.isEmpty }
    | .recv msg => (handle st.pool msg).map fun pool => { st with pool := pool }
    | .retired key => some { st with pool := st.pool.raiseRetired key }
    | .relayout sp ws => some { st with pool := st.pool.relayout sp ws }

/-! ## Which turns keep a profile -/

theorem keys_isEmpty_of_mem {s : WorkerPool} {k : Uuid} (hk : k ∈ s.userWorkers) :
    s.userWorkers.keys.isEmpty = false :=
  List.isEmpty_eq_false_iff_exists_mem.2 ⟨k, AList.mem_keys.1 hk⟩

theorem mem_userWorkers_handle {s s' : WorkerPool} {msg : UserWorkerMsgs} {k : Uuid}
    (hmsg : msg ≠ .shutdown k) (hk : k ∈ s.userWorkers) (h : handle s msg = some s') :
    k ∈ s'.userWorkers := by
  cases msg with
  | create sp forceCreate =>
      exact WorkerPool.mem_userWorkers_step (show PoolOp.create sp forceCreate ≠ _ by simp) hk h
  | created key profile =>
      exact WorkerPool.mem_userWorkers_step (show PoolOp.created key profile ≠ _ by simp) hk h
  | sendRequest key =>
      cases h
      exact hk
  | idle key => exact WorkerPool.mem_userWorkers_step (show PoolOp.idle key ≠ _ by simp) hk h
  | shutdown key =>
      have hop : PoolOp.shutdown key ≠ .shutdown k := fun he => hmsg (by cases he; rfl)
      exact WorkerPool.mem_userWorkers_step hop hk h

/-- No turn but `Shutdown(k)` takes `k`'s profile away, and a loop that
still holds a profile does not stop. -/
theorem mem_userWorkers_step {st st' : PoolLoop} {e : LoopEvent} {k : Uuid}
    (he : e ≠ .recv (.shutdown k)) (hk : k ∈ st.pool.userWorkers) (h : st.step e = some st') :
    k ∈ st'.pool.userWorkers ∧ st'.stopped = false := by
  unfold step at h
  split at h
  · cases h
  · rename_i hst
    have hst : st.stopped = false := by simpa using hst
    split at h
    · split at h
      · cases h
      · cases h
        exact ⟨hk, keys_isEmpty_of_mem hk⟩
    · rename_i key
      obtain ⟨pool, hpool, rfl⟩ := Option.map_eq_some_iff.1 h
      have hmsg : UserWorkerMsgs.shutdown key ≠ .shutdown k := fun hkey => he (by rw [hkey])
      have hk' := mem_userWorkers_handle hmsg hk hpool
      refine ⟨hk', ?_⟩
      show (st.terminationRequested && pool.userWorkers.keys.isEmpty) = false
      rw [keys_isEmpty_of_mem hk', Bool.and_false]
    · rename_i msg hnot
      obtain ⟨pool, hpool, rfl⟩ := Option.map_eq_some_iff.1 h
      have hmsg : msg ≠ .shutdown k := fun hkey => hnot k hkey
      exact ⟨mem_userWorkers_handle hmsg hk hpool, hst⟩
    · cases h
      exact ⟨WorkerPool.mem_userWorkers_raiseRetired.2 hk, hst⟩
    · cases h
      exact ⟨by rwa [WorkerPool.userWorkers_relayout], hst⟩

/-- The run lemma: from a turn that leaves a profile for `k` on, every run
without `Shutdown(k)` keeps it, and the loop stays up. -/
theorem mem_userWorkers_exec {st st' : PoolLoop} {es : List LoopEvent} {k : Uuid}
    (hes : ∀ e ∈ es, e ≠ .recv (.shutdown k)) (hk : k ∈ st.pool.userWorkers)
    (hst : st.stopped = false) (h : exec step st es = some st') :
    k ∈ st'.pool.userWorkers ∧ st'.stopped = false :=
  exec_preserves_on (I := fun st => k ∈ st.pool.userWorkers ∧ st.stopped = false)
    (fun _ _ _ he hI hstep => mem_userWorkers_step he hI.1 hstep) es st st' hes ⟨hk, hst⟩ h

/-- `Created(k, _)` leaves a profile for `k`, whatever the loop held before. -/
theorem mem_userWorkers_created {st st' : PoolLoop} {k : Uuid} {p : UserWorkerProfile}
    (h : st.step (.recv (.created k p)) = some st') :
    k ∈ st'.pool.userWorkers ∧ st'.stopped = false := by
  unfold step at h
  split at h
  · cases h
  · rename_i hst
    cases h
    exact ⟨WorkerPool.mem_userWorkers_addUserWorker.2 (Or.inl rfl), by simpa using hst⟩

end PoolLoop

open PoolLoop

theorem shutdown_before_created_leaks (init st' : PoolLoop) (pre ops : List LoopEvent)
    (k : Uuid) (p : UserWorkerProfile) (hops : ∀ e ∈ ops, e ≠ .recv (.shutdown k))
    (hrun : exec step init (pre ++ .recv (.shutdown k) :: .recv (.created k p) :: ops) =
      some st') :
    k ∈ st'.pool.userWorkers ∧ st'.stopped = false := by
  rw [exec_append] at hrun
  obtain ⟨st1, -, hrun⟩ := Option.bind_eq_some_iff.1 hrun
  simp only [exec_cons, Option.bind_eq_some_iff] at hrun
  obtain ⟨st2, -, st3, hcreated, hrest⟩ := hrun
  have h3 := mem_userWorkers_created hcreated
  exact mem_userWorkers_exec hops h3.1 h3.2 hrest

/-- Worker 2 is still up when termination is requested; worker 1's `Shutdown`
overtakes its `Created`, and when worker 2 shuts down the pool still holds
worker 1, so the loop never breaks. -/
theorem shutdown_before_created_leaks_terminating :
    ∃ st, exec step (new (.perRequest false) 1)
        [.recv (.created 2 ⟨"functions/hello", true, 0, false⟩), .terminate,
          .recv (.shutdown 1), .recv (.created 1 ⟨"functions/hello", true, 0, false⟩),
          .recv (.shutdown 2)] = some st ∧
      st.terminationRequested = true ∧ 1 ∈ st.pool.userWorkers ∧ st.stopped = false :=
  ⟨_, rfl, rfl, shutdown_before_created_leaks (new (.perRequest false) 1) _
    [.recv (.created 2 ⟨"functions/hello", true, 0, false⟩), .terminate]
    [.recv (.shutdown 2)] 1 ⟨"functions/hello", true, 0, false⟩ (by decide) rfl⟩

end EdgeRuntime.Pool
