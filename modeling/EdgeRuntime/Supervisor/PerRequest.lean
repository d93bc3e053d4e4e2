import EdgeRuntime.Pool.Exclusivity

/-!
# The per-request supervisor together with the pool

Under `SupervisorPolicy::PerRequest` every worker has a supervisor
(`strategy_per_request::supervise`,
crates/base/src/rt_worker/supervisor/strategy_per_request.rs) that guards a
request cycle with one flag, `req_start_ack`:

* the task `send_request` spawns for a handed-out worker sends a fence on
  `req_start_tx`; the supervisor asserts `!req_start_ack`, notifies the fence
  and raises the flag;
* when the request is over, its end signal comes on `req_end_tx`; the
  supervisor asserts `req_start_ack` and, the reason being `EarlyDrop`, clears
  the flag and sends `Idle(key)` to the pool, or returns if the worker is
  oneshot.

The model runs the pool, the request tasks and the supervisors together.
Each hand-out starts one request task, which sends its fence and, once let
through, one end signal.  A supervisor may also return at any time for its
other reasons (wall clock, CPU time, memory, termination); its scope guard
then raises the worker's `is_retired`.  The channels are unbounded, so a send
never blocks; a fence is its request's `Notify`, so the model keeps a request
waiting on its fence as the fence in flight.  Each receiver may take any
message in flight for it, which covers the FIFO order.  A failed assertion is
recorded in `failed`.

## Main results

* `Inv.step`: every event keeps the invariant, under which a worker has at
  most one request cycle in flight, is busy while it has one, and its
  supervisor's flag is raised exactly while the cycle is past its fence.
* `per_request_exclusive`: in every run of the pool two hand-outs of a worker
  have an `idle` between them, and in every run of the whole system no
  supervisor assertion fails.
-/

namespace EdgeRuntime.Supervisor

open EdgeRuntime.Verified EdgeRuntime.Verified.Machine EdgeRuntime.Pool

/-- Where the request task of a handed-out worker stands. -/
inductive RequestPhase
  /-- About to send its fence on `req_start_tx`. -/
  | fence
  /-- Its fence is in flight: waiting on `fence.notified()`. -/
  | waiting
  /-- Let through; its end signal is still to come. -/
  | running
  deriving DecidableEq

/-- The pool, the request tasks and the supervisors. -/
structure Serving where
  pool : WorkerPool
  /-- The uuids `Uuid::new_v4` has drawn. -/
  issued : List Uuid
  /-- The request tasks in flight, with the worker each was handed. -/
  requests : List (Uuid × RequestPhase)
  /-- End signals in flight on the supervisors' `req_end` channels. -/
  ends : List Uuid
  /-- `Idle` messages in flight on the pool's channel. -/
  idles : List Uuid
  /-- `req_start_ack` of each worker's supervisor. -/
  acked : Uuid → Bool
  /-- The supervisors that have returned. -/
  exited : Uuid → Bool
  /-- A supervisor assertion has failed. -/
  failed : Bool

/-- What happens next somewhere in the system. -/
inductive Event
  /-- The pool handles `Create`; a hand-out starts a request task. -/
  | create (servicePath : String) (forceCreate : Bool)
  /-- The pool handles `Created` for a fresh uuid; its creator's request task
  starts. -/
  | created (key : Uuid) (profile : UserWorkerProfile)
  | shutdown (key : Uuid)
  | relayout (servicePath : String) (workers : List WorkerId)
  /-- A request task sends its fence. -/
  | sendFence (key : Uuid)
  /-- A supervisor receives a fence. -/
  | recvFence (key : Uuid)
  /-- A running request ends and sends on `req_end_tx`. -/
  | sendEnd (key : Uuid)
  /-- A supervisor receives an end signal. -/
  | recvEnd (key : Uuid)
  /-- The pool handles `Idle`. -/
  | recvIdle (key : Uuid)
  /-- A supervisor returns for another reason. -/
  | exit (key : Uuid)

namespace Serving

/-- The pool loop's `WorkerPool::new`, before any worker exists. -/
def new (oneshot : Bool) (maxParallelism : Nat) : Serving where
  pool := WorkerPool.new (.perRequest oneshot) maxParallelism
  issued := []
  requests := []
  ends := []
  idles := []
  acked := fun _ => false
  exited := fun _ => false
  failed := false

/-- One event; `none` where the event cannot happen. -/
def step (s : Serving) : Event → Option Serving
  | .create sp forceCreate =>
      (s.pool.createUserWorker sp forceCreate).map fun res =>
        { s with pool := res.1,
                 requests := (res.2.map fun k => (k, RequestPhase.fence)).toList ++ s.requests }
  | .created key profile =>
      if key ∈ s.issued then none
      else some { s with pool := s.pool.addUserWorker key profile, issued := key :: s.issued,
                         requests := (key, .fence) :: s.requests }
  | .shutdown key => (s.pool.shutdown key).map fun pool => { s with pool := pool }
  | .relayout sp ws => some { s with pool := s.pool.relayout sp ws }
  | .sendFence key =>
      if (key, .fence) ∈ s.requests then
        some { s with requests := (key, .waiting) :: s.requests.erase (key, .fence) }
      else none
  | .recvFence key =>
      if (key, .waiting) ∈ s.requests ∧ s.exited key = false then
        if s.acked key then some { s with failed := true }
        else some { s with requests := (key, .running) :: s.requests.erase (key, .waiting),
                           acked := Function.update s.acked key true }
      else none
  | .sendEnd key =>
      if (key, .running) ∈ s.requests then
        some { s with requests := s.requests.erase (key, .running), ends := s.ends ++ [key] }
      else none
  | .recvEnd key =>
      if key ∈ s.ends ∧ s.exited key = false then
        if !s.acked key then some { s with failed := true }
        else if s.pool.policy.isOneshot then
          some { s with ends := s.ends.erase key, exited := Function.update s.exited key true,
                        pool := s.pool.raiseRetired key }
        else
          some { s with ends := s.ends.erase key, acked := Function.update s.acked key false,
                        idles := s.idles ++ [key] }
      else none
  | .recvIdle key =>
      if key ∈ s.idles then some { s with idles := s.idles.erase key, pool := s.pool.idle key }
      else none
  | .exit key =>
      if key ∈ s.issued ∧ s.exited key = false then
        some { s with exited := Function.update s.exited key true, pool := s.pool.raiseRetired key }
      else none

/-! ## The invariant -/

/-- The request cycles of worker `k` in flight: its request task in any
phase, its end signal, its `Idle` message. -/
def tokens (s : Serving) (k : Uuid) : Nat :=
  s.requests.count (k, .fence) + s.requests.count (k, .waiting) +
    s.requests.count (k, .running) + s.ends.count k + s.idles.count k

/-- The request cycles of `k` past its supervisor's fence. -/
def pastFence (s : Serving) (k : Uuid) : Nat :=
  s.requests.count (k, .running) + s.ends.count k

structure Inv (oneshot : Bool) (s : Serving) : Prop where
  pool : PerRequestState oneshot s.pool
  issued : ∀ k, k ∈ s.pool.userWorkers → k ∈ s.issued
  fresh : ∀ k, k ∉ s.issued → s.acked k = false ∧ s.tokens k = 0
  single : ∀ k, s.tokens k ≤ 1
  busy : ∀ k, 0 < s.tokens k → s.pool.Busy k
  ack : ∀ k, s.exited k = false → (s.acked k = true ↔ 0 < s.pastFence k)
  ok : s.failed = false

theorem inv_new (oneshot : Bool) (maxParallelism : Nat) : Inv oneshot (new oneshot maxParallelism) where
  pool := ⟨WorkerPool.consistent_new _ _, rfl⟩
  issued k hk := absurd hk (by simp [new, WorkerPool.new])
  fresh _ _ := ⟨rfl, rfl⟩
  single _ := by simp [tokens, new]
  busy k hk := by simp [tokens, new] at hk
  ack k _ := by simp [pastFence, new]
  ok := rfl

section Events

variable {oneshot : Bool} {s : Serving}

/-- A worker with a cycle in flight has had its uuid drawn. -/
theorem Inv.mem_issued (h : Inv oneshot s) {k : Uuid} (hk : 0 < s.tokens k) : k ∈ s.issued := by
  by_contra hne
  have h0 := (h.fresh k hne).2
  omega

theorem Inv.create (h : Inv oneshot s) {sp : String} {force : Bool} {pool : WorkerPool}
    {o : Option Uuid} (hs : s.pool.createUserWorker sp force = some (pool, o)) :
    Inv oneshot { s with pool := pool,
                         requests := (o.map fun k => (k, RequestPhase.fence)).toList ++ s.requests } := by
  have hpool : PerRequestState oneshot pool :=
    ⟨h.pool.consistent.createUserWorker hs, (WorkerPool.policy_createUserWorker hs).trans h.pool.policy⟩
  have hissued : ∀ k, k ∈ pool.userWorkers → k ∈ s.issued := fun k hk =>
    h.issued k ((WorkerPool.mem_userWorkers_createUserWorker hs).1 hk)
  have hbusy : ∀ k, s.pool.Busy k → pool.Busy k := fun k hk => hk.createUserWorker hs
  cases o with
  | none =>
      exact ⟨hpool, hissued, h.fresh, h.single, fun k hk => hbusy k (h.busy k hk), h.ack, h.ok⟩
  | some key =>
      have hkey0 : s.tokens key = 0 := by
        by_contra hne
        exact WorkerPool.not_busy_of_createUserWorker hs (h.busy key (by omega))
      have hkey : key ∈ s.issued := h.issued key (WorkerPool.mem_userWorkers_of_createUserWorker hs)
      have htok : ∀ k, tokens
          { s with pool := pool,
                   requests := ((some key).map fun k => (k, RequestPhase.fence)).toList ++ s.requests }
          k = s.tokens k + if key = k then 1 else 0 := by
        intro k
        by_cases hk : key = k
        · subst hk
          simp only [tokens, Option.map_some, Option.toList_some, List.cons_append, List.nil_append,
            List.count_cons_self, ne_eq, Prod.mk.injEq, reduceCtorEq, and_false, not_false_eq_true,
            List.count_cons_of_ne, ↓reduceIte]
          omega
        · simp [tokens, hk]
      have hpast : ∀ k, pastFence
          { s with pool := pool,
                   requests := ((some key).map fun k => (k, RequestPhase.fence)).toList ++ s.requests }
          k = s.pastFence k := by
        intro k
        simp [pastFence]
      refine ⟨hpool, hissued, fun k hk => ?_, fun k => ?_, fun k hk => ?_, fun k hk => ?_, h.ok⟩
      · have hne : key ≠ k := fun he => hk (he ▸ hkey)
        rw [htok k, if_neg hne]
        exact h.fresh k hk
      · rw [htok k]
        by_cases hk : key = k
        · subst hk
          rw [if_pos rfl, hkey0]
        · rw [if_neg hk, Nat.add_zero]
          exact h.single k
      · rw [htok k] at hk
        by_cases hkk : key = k
        · subst hkk
          exact WorkerPool.busy_of_createUserWorker h.pool.consistent (by rw [h.pool.policy]; rfl) hs
        · rw [if_neg hkk, Nat.add_zero] at hk
          exact hbusy k (h.busy k hk)
      · rw [hpast k]
        exact h.ack k hk

theorem Inv.created (h : Inv oneshot s) {key : Uuid} (hkey : key ∉ s.issued)
    (p : UserWorkerProfile) :
    Inv oneshot { s with pool := s.pool.addUserWorker key p, issued := key :: s.issued,
                         requests := (key, .fence) :: s.requests } := by
  have hfresh := h.fresh key hkey
  have hkuw : key ∉ s.pool.userWorkers := fun hk => hkey (h.issued key hk)
  have hpol : s.pool.policy.isPerWorker = false := by rw [h.pool.policy]; rfl
  have htok : ∀ k, tokens
      { s with pool := s.pool.addUserWorker key p, issued := key :: s.issued,
               requests := (key, .fence) :: s.requests } k = s.tokens k + if key = k then 1 else 0 := by
    intro k
    by_cases hk : key = k
    · subst hk
      simp only [tokens, List.count_cons_self, ne_eq, Prod.mk.injEq, reduceCtorEq, and_false,
        not_false_eq_true, List.count_cons_of_ne, ↓reduceIte]
      omega
    · simp [tokens, hk]
  refine ⟨⟨h.pool.consistent.addUserWorker hkuw, h.pool.policy⟩, fun k hk => ?_,
    fun k hk => ?_, fun k => ?_, fun k hk => ?_, fun k hk => ?_, h.ok⟩
  · rcases WorkerPool.mem_userWorkers_addUserWorker.1 hk with rfl | hold
    · exact List.mem_cons_self
    · exact List.mem_cons_of_mem key (h.issued k hold)
  · have hne : key ≠ k := fun he => hk (he ▸ List.mem_cons_self)
    have hk' : k ∉ s.issued := fun hmem => hk (List.mem_cons_of_mem key hmem)
    rw [htok k, if_neg hne]
    exact h.fresh k hk'
  · rw [htok k]
    by_cases hk : key = k
    · subst hk
      rw [if_pos rfl, hfresh.2]
    · rw [if_neg hk, Nat.add_zero]
      exact h.single k
  · rw [htok k] at hk
    by_cases hkk : key = k
    · subst hkk
      exact WorkerPool.busy_addUserWorker h.pool.consistent hpol hkuw p
    · rw [if_neg hkk, Nat.add_zero] at hk
      exact (h.busy k hk).addUserWorker hpol key p
  · have hpast : pastFence
        { s with pool := s.pool.addUserWorker key p, issued := key :: s.issued,
                 requests := (key, .fence) :: s.requests } k = s.pastFence k := by
      simp [pastFence]
    rw [hpast]
    exact h.ack k hk

/-- An event that changes only the pool, keeping its invariant, its
profiles and every busy worker. -/
theorem Inv.setPool (h : Inv oneshot s) {pool : WorkerPool} (hpool : PerRequestState oneshot pool)
    (huw : ∀ k, k ∈ pool.userWorkers → k ∈ s.pool.userWorkers)
    (hbusy : ∀ k, s.pool.Busy k → pool.Busy k) : Inv oneshot { s with pool := pool } :=
  ⟨hpool, fun k hk => h.issued k (huw k hk), h.fresh, h.single, fun k hk => hbusy k (h.busy k hk),
    h.ack, h.ok⟩

theorem Inv.sendFence (h : Inv oneshot s) {key : Uuid} (hkey : (key, .fence) ∈ s.requests) :
    Inv oneshot { s with requests := (key, .waiting) :: s.requests.erase (key, .fence) } := by
  have hpos := List.count_pos_iff.2 hkey
  have htok : ∀ k, tokens
      { s with requests := (key, .waiting) :: s.requests.erase (key, .fence) } k = s.tokens k := by
    intro k
    by_cases hk : key = k
    · subst hk
      simp only [tokens, ne_eq, Prod.mk.injEq, reduceCtorEq, and_false, not_false_eq_true,
        List.count_cons_of_ne, List.count_erase_self, List.count_cons_self, List.count_erase_of_ne,
        Nat.add_right_cancel_iff]
      omega
    · simp [tokens, List.count_erase, hk]
  have hpast : ∀ k, pastFence
      { s with requests := (key, .waiting) :: s.requests.erase (key, .fence) } k =
      s.pastFence k := by
    intro k
    simp [pastFence]
  exact ⟨h.pool, h.issued, fun k hk => by rw [htok k]; exact h.fresh k hk,
    fun k => by rw [htok k]; exact h.single k, fun k hk => by rw [htok k] at hk; exact h.busy k hk,
    fun k hk => by rw [hpast k]; exact h.ack k hk, h.ok⟩

/-- A fence reaches a supervisor whose flag is down: the cycle is the only
one of its worker and has not passed the fence yet. -/
theorem Inv.acked_of_waiting (h : Inv oneshot s) {key : Uuid}
    (hkey : (key, .waiting) ∈ s.requests) (hex : s.exited key = false) : s.acked key = false := by
  have hpos := List.count_pos_iff.2 hkey
  have hsingle := h.single key
  have hpast : s.pastFence key = 0 := by
    unfold tokens at hsingle
    unfold pastFence
    omega
  cases hack : s.acked key with
  | false => rfl
  | true =>
      have := (h.ack key hex).1 hack
      omega

theorem Inv.recvFence (h : Inv oneshot s) {key : Uuid} (hkey : (key, .waiting) ∈ s.requests)
    (hex : s.exited key = false) :
    Inv oneshot { s with requests := (key, .running) :: s.requests.erase (key, .waiting),
                         acked := Function.update s.acked key true } := by
  have hpos := List.count_pos_iff.2 hkey
  have hack := h.acked_of_waiting hkey hex
  have hissued : key ∈ s.issued := h.mem_issued (by unfold tokens; omega)
  have htok : ∀ k, tokens
      { s with requests := (key, .running) :: s.requests.erase (key, .waiting),
               acked := Function.update s.acked key true } k = s.tokens k := by
    intro k
    by_cases hk : key = k
    · subst hk
      simp only [tokens, ne_eq, Prod.mk.injEq, reduceCtorEq, and_false, not_false_eq_true,
        List.count_cons_of_ne, List.count_erase_of_ne, List.count_erase_self, List.count_cons_self,
        Nat.add_right_cancel_iff]
      omega
    · simp [tokens, List.count_erase, hk]
  refine ⟨h.pool, h.issued, fun k hk => ?_, fun k => by rw [htok k]; exact h.single k,
    fun k hk => by rw [htok k] at hk; exact h.busy k hk, fun k hk => ?_, h.ok⟩
  · have hne : k ≠ key := fun he => hk (he ▸ hissued)
    refine ⟨?_, by rw [htok k]; exact (h.fresh k hk).2⟩
    simp only [Function.update_of_ne hne]
    exact (h.fresh k hk).1
  · by_cases hk' : k = key
    · subst hk'
      simp only [Function.update_self, pastFence, List.count_cons_self, ne_eq, Prod.mk.injEq,
        reduceCtorEq, and_false, not_false_eq_true, List.count_erase_of_ne, true_iff]
      omega
    · have hpast : pastFence
          { s with requests := (key, .running) :: s.requests.erase (key, .waiting),
                   acked := Function.update s.acked key true } k = s.pastFence k := by
        simp [pastFence, Ne.symm hk']
      simp only [Function.update_of_ne hk', hpast]
      exact h.ack k hk

theorem Inv.sendEnd (h : Inv oneshot s) {key : Uuid} (hkey : (key, .running) ∈ s.requests) :
    Inv oneshot { s with requests := s.requests.erase (key, .running), ends := s.ends ++ [key] } := by
  have hpos := List.count_pos_iff.2 hkey
  have htok : ∀ k, tokens
      { s with requests := s.requests.erase (key, .running), ends := s.ends ++ [key] } k =
      s.tokens k := by
    intro k
    by_cases hk : key = k
    · subst hk
      simp only [tokens, ne_eq, Prod.mk.injEq, reduceCtorEq, and_false, not_false_eq_true,
        List.count_erase_of_ne, List.count_erase_self, List.count_append, List.nodup_cons,
        List.not_mem_nil, List.nodup_nil, and_self, List.mem_cons, or_false,
        List.count_eq_one_of_mem, Nat.add_right_cancel_iff]
      omega
    · simp [tokens, List.count_erase, hk]
  have hpast : ∀ k, pastFence
      { s with requests := s.requests.erase (key, .running), ends := s.ends ++ [key] } k =
      s.pastFence k := by
    intro k
    by_cases hk : key = k
    · subst hk
      simp only [pastFence, List.count_erase_self, List.count_append, List.nodup_cons,
        List.not_mem_nil, not_false_eq_true, List.nodup_nil, and_self, List.mem_cons, or_false,
        List.count_eq_one_of_mem]
      omega
    · simp [pastFence, List.count_erase, hk]
  exact ⟨h.pool, h.issued, fun k hk => by rw [htok k]; exact h.fresh k hk,
    fun k => by rw [htok k]; exact h.single k, fun k hk => by rw [htok k] at hk; exact h.busy k hk,
    fun k hk => by rw [hpast k]; exact h.ack k hk, h.ok⟩

/-- An end signal reaches a supervisor whose flag is up. -/
theorem Inv.acked_of_end (h : Inv oneshot s) {key : Uuid} (hkey : key ∈ s.ends)
    (hex : s.exited key = false) : s.acked key = true := by
  have hpos := List.count_pos_iff.2 hkey
  exact (h.ack key hex).2 (by unfold pastFence; omega)

theorem Inv.recvEnd_oneshot (h : Inv oneshot s) {key : Uuid} :
    Inv oneshot { s with ends := s.ends.erase key, exited := Function.update s.exited key true,
                         pool := s.pool.raiseRetired key } := by
  have htok : ∀ k, tokens
      { s with ends := s.ends.erase key, exited := Function.update s.exited key true,
               pool := s.pool.raiseRetired key } k ≤ s.tokens k := by
    intro k
    simp only [tokens, List.count_erase]
    omega
  refine ⟨h.pool.step (show guarded WorkerPool.FreshCreated WorkerPool.step s.pool (.raiseRetired key) =
      some (s.pool.raiseRetired key) from rfl), fun k hk => ?_, fun k hk => ?_, fun k => ?_,
    fun k hk => ?_, fun k hk => ?_, h.ok⟩
  · exact h.issued k (WorkerPool.mem_userWorkers_raiseRetired.1 hk)
  · have h0 := (h.fresh k hk).2
    have h1 := htok k
    exact ⟨(h.fresh k hk).1, by omega⟩
  · exact Nat.le_trans (htok k) (h.single k)
  · have h1 := htok k
    exact (h.busy k (by omega)).raiseRetired key
  · have hne : k ≠ key := fun he => by
      subst he
      simp at hk
    simp only [Function.update_of_ne hne] at hk
    have hpast : pastFence
        { s with ends := s.ends.erase key, exited := Function.update s.exited key true,
                 pool := s.pool.raiseRetired key } k = s.pastFence k := by
      simp [pastFence, List.count_erase, Ne.symm hne]
    rw [hpast]
    exact h.ack k hk

theorem Inv.recvEnd_idle (h : Inv oneshot s) {key : Uuid} (hkey : key ∈ s.ends)
    (hex : s.exited key = false) :
    Inv oneshot { s with ends := s.ends.erase key, acked := Function.update s.acked key false,
                         idles := s.idles ++ [key] } := by
  have hpos := List.count_pos_iff.2 hkey
  have hissued : key ∈ s.issued := h.mem_issued (by unfold tokens; omega)
  have hsingle := h.single key
  have htok : ∀ k, tokens
      { s with ends := s.ends.erase key, acked := Function.update s.acked key false,
               idles := s.idles ++ [key] } k = s.tokens k := by
    intro k
    by_cases hk : key = k
    · subst hk
      simp only [tokens, List.count_erase_self, List.count_append, List.nodup_cons,
        List.not_mem_nil, not_false_eq_true, List.nodup_nil, and_self, List.mem_cons, or_false,
        List.count_eq_one_of_mem]
      omega
    · simp [tokens, List.count_erase, hk]
  refine ⟨h.pool, h.issued, fun k hk => ?_, fun k => by rw [htok k]; exact h.single k,
    fun k hk => by rw [htok k] at hk; exact h.busy k hk, fun k hk => ?_, h.ok⟩
  · have hne : k ≠ key := fun he => hk (he ▸ hissued)
    refine ⟨?_, by rw [htok k]; exact (h.fresh k hk).2⟩
    simp only [Function.update_of_ne hne]
    exact (h.fresh k hk).1
  · by_cases hk' : k = key
    · subst hk'
      have hpast : pastFence
          { s with ends := s.ends.erase k, acked := Function.update s.acked k false,
                   idles := s.idles ++ [k] } k = 0 := by
        unfold tokens at hsingle
        simp only [pastFence, List.count_erase_self, Nat.add_eq_zero_iff]
        omega
      simp [hpast]
    · have hpast : pastFence
          { s with ends := s.ends.erase key, acked := Function.update s.acked key false,
                   idles := s.idles ++ [key] } k = s.pastFence k := by
        simp [pastFence, List.count_erase, Ne.symm hk']
      simp only [Function.update_of_ne hk', hpast]
      exact h.ack k hk

theorem Inv.recvIdle (h : Inv oneshot s) {key : Uuid} (hkey : key ∈ s.idles) :
    Inv oneshot { s with idles := s.idles.erase key, pool := s.pool.idle key } := by
  have hpos := List.count_pos_iff.2 hkey
  have hsingle := h.single key
  have htok : ∀ k, tokens { s with idles := s.idles.erase key, pool := s.pool.idle key } k =
      s.tokens k - if key = k then 1 else 0 := by
    intro k
    by_cases hk : key = k
    · subst hk
      simp only [tokens, List.count_erase_self, ↓reduceIte]
      omega
    · simp [tokens, List.count_erase, hk]
  refine ⟨h.pool.step (show guarded WorkerPool.FreshCreated WorkerPool.step s.pool (.idle key) =
      some (s.pool.idle key) from rfl), fun k hk => ?_, fun k hk => ?_, fun k => ?_,
    fun k hk => ?_, fun k hk => ?_, h.ok⟩
  · rw [WorkerPool.userWorkers_idle] at hk
    exact h.issued k hk
  · refine ⟨(h.fresh k hk).1, ?_⟩
    rw [htok k, (h.fresh k hk).2]
    exact Nat.zero_sub _
  · rw [htok k]
    exact Nat.le_trans (Nat.sub_le _ _) (h.single k)
  · rw [htok k] at hk
    have hne : key ≠ k := fun he => by
      subst he
      unfold tokens at hsingle hk
      simp only [if_true] at hk
      omega
    rw [if_neg hne] at hk
    exact (h.busy k (by omega)).idle hne
  · have hpast : pastFence { s with idles := s.idles.erase key, pool := s.pool.idle key } k =
        s.pastFence k := rfl
    rw [hpast]
    exact h.ack k hk

theorem Inv.exit (h : Inv oneshot s) {key : Uuid} (hkey : key ∈ s.issued) :
    Inv oneshot { s with exited := Function.update s.exited key true,
                         pool := s.pool.raiseRetired key } := by
  refine ⟨h.pool.step (show guarded WorkerPool.FreshCreated WorkerPool.step s.pool (.raiseRetired key) =
      some (s.pool.raiseRetired key) from rfl), fun k hk => ?_, h.fresh, h.single,
    fun k hk => (h.busy k hk).raiseRetired key, fun k hk => ?_, h.ok⟩
  · exact h.issued k (WorkerPool.mem_userWorkers_raiseRetired.1 hk)
  · have hne : k ≠ key := fun he => by
      subst he
      simp at hk
    simp only [Function.update_of_ne hne] at hk
    exact h.ack k hk

end Events

/-- Every event keeps the invariant; in particular no assertion fails. -/
theorem Inv.step {oneshot : Bool} {s s' : Serving} {e : Event} (h : Inv oneshot s)
    (hs : s.step e = some s') : Inv oneshot s' := by
  cases e with
  | create sp force =>
      obtain ⟨⟨pool, o⟩, h1, rfl⟩ := Option.map_eq_some_iff.1 hs
      exact h.create h1
  | created key p =>
      simp only [Serving.step] at hs
      split at hs
      · cases hs
      · rename_i hkey
        cases hs
        exact h.created hkey p
  | shutdown key =>
      obtain ⟨pool, h1, rfl⟩ := Option.map_eq_some_iff.1 hs
      refine h.setPool (h.pool.step (show guarded WorkerPool.FreshCreated WorkerPool.step s.pool
        (.shutdown key) = some pool from h1)) (fun k hk => ?_) fun k hk => hk.shutdown h1
      exact ((WorkerPool.mem_userWorkers_shutdown h1).1 hk).1
  | relayout sp ws =>
      cases hs
      refine h.setPool (h.pool.step (show guarded WorkerPool.FreshCreated WorkerPool.step s.pool
        (.relayout sp ws) = some (s.pool.relayout sp ws) from rfl)) (fun k hk => ?_)
        fun k hk => hk.relayout sp ws
      rwa [WorkerPool.userWorkers_relayout] at hk
  | sendFence key =>
      simp only [Serving.step] at hs
      split at hs
      · rename_i hkey
        cases hs
        exact h.sendFence hkey
      · cases hs
  | recvFence key =>
      simp only [Serving.step] at hs
      split at hs
      · rename_i hkey
        rw [h.acked_of_waiting hkey.1 hkey.2, if_neg (by decide)] at hs
        cases hs
        exact h.recvFence hkey.1 hkey.2
      · cases hs
  | sendEnd key =>
      simp only [Serving.step] at hs
      split at hs
      · rename_i hkey
        cases hs
        exact h.sendEnd hkey
      · cases hs
  | recvEnd key =>
      simp only [Serving.step] at hs
      split at hs
      · rename_i hkey
        rw [h.acked_of_end hkey.1 hkey.2, if_neg (by decide)] at hs
        split at hs
        · cases hs
          exact h.recvEnd_oneshot
        · cases hs
          exact h.recvEnd_idle hkey.1 hkey.2
      · cases hs
  | recvIdle key =>
      simp only [Serving.step] at hs
      split at hs
      · rename_i hkey
        cases hs
        exact h.recvIdle hkey
      · cases hs
  | exit key =>
      simp only [Serving.step] at hs
      split at hs
      · rename_i hkey
        cases hs
        exact h.exit hkey.1
      · cases hs

theorem inv_inductive (oneshot : Bool) (maxParallelism : Nat) :
    Inductive step (new oneshot maxParallelism) (Inv oneshot) where
  init := inv_new oneshot maxParallelism
  step _ _ _ h hs := h.step hs

end Serving

open Serving

theorem per_request_exclusive (oneshot : Bool) (maxParallelism : Nat) :
    (∀ ops : List PoolOp, (ops.filterMap PoolOp.createdKey).Nodup → ∀ k i j, i < j →
      HandsOut (WorkerPool.new (.perRequest oneshot) maxParallelism) ops i k →
      HandsOut (WorkerPool.new (.perRequest oneshot) maxParallelism) ops j k →
      ∃ l, i < l ∧ l < j ∧ ops[l]? = some (.idle k)) ∧
    (∀ (es : List Event) (s : Serving), exec step (new oneshot maxParallelism) es = some s →
      s.failed = false) := by
  refine ⟨fun ops hfresh k i j hij hi hj => ?_, fun es s hrun => ?_⟩
  · exact handOut_exclusive oneshot maxParallelism ops hfresh k i j hij hi hj
  · exact ((inv_inductive oneshot maxParallelism).reachable ⟨es, hrun⟩).ok

/-- A worker is created, serves one request, goes idle and is handed out
again by `create_user_worker`; its supervisor sees both fences. -/
theorem per_request_exclusive_two_cycles :
    (∃ l, 0 < l ∧ l < 2 ∧
      [PoolOp.created 1 ⟨"functions/hello", true, 0, false⟩, .idle 1,
        .create "functions/hello" false][l]? = some (.idle 1)) ∧
    (∃ s, exec step (new false 1)
        [.created 1 ⟨"functions/hello", true, 0, false⟩, .sendFence 1, .recvFence 1, .sendEnd 1,
          .recvEnd 1, .recvIdle 1, .create "functions/hello" false, .sendFence 1,
          .recvFence 1] = some s ∧ s.failed = false) :=
  ⟨(per_request_exclusive false 1).1
      [.created 1 ⟨"functions/hello", true, 0, false⟩, .idle 1, .create "functions/hello" false]
      (by decide) 1 0 2 (by decide) ⟨_, _, rfl, rfl, rfl⟩ ⟨_, _, rfl, rfl, rfl⟩,
    ⟨_, rfl, (per_request_exclusive false 1).2
      [.created 1 ⟨"functions/hello", true, 0, false⟩, .sendFence 1, .recvFence 1, .sendEnd 1,
        .recvEnd 1, .recvIdle 1, .create "functions/hello" false, .sendFence 1, .recvFence 1]
      _ rfl⟩⟩

end EdgeRuntime.Supervisor
