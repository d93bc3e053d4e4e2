import Mathlib
import EdgeRuntime.Verified.Machine

/-!
# Request accounting in the server

Graceful shutdown (`Server::listen`, crates/base/src/server.rs) drains until
no connection is open and `received_requests` equals `handled_requests`.
`WorkerService::call` counts a request as received once it has been sent to
the main worker, and spawns a watcher task that counts it as handled when the
request's token, a child of its connection's token, is cancelled.  The token
is cancelled by `CancelOnDrop` when the response body is dropped, and by the
connection task's `drop_guard` when the connection ends.

When the main worker drops the response sender instead of answering,
`res_rx` fails and `call` counts the request as handled itself, but leaves
the token alone: the watcher still waits on it, and counts the request a
second time when the connection ends.

The model has one state for the whole server: the connections, each
request's `call` future and watcher, and the two counters.  Each task's
steps are events, interleaved in any order.

## Main results

* `Inv.step`: a request still waiting on `res_rx` has a live watcher, an
  uncancelled token and an open connection.
* `Counts.step`: in every run `received` is the number of requests and
  `handled` counts each request once per watcher that fired and once more if
  `res_rx` failed.
* `handled_twice`: from every reachable state, a request waiting on `res_rx`
  whose sender is dropped is counted twice once its connection ends.
* `drained_eq_false_of_failed`: once every watcher has fired, a failed
  request keeps the drain loop from ever seeing `received == handled`.
-/

namespace EdgeRuntime.Server

open EdgeRuntime.Verified.Machine

/-- Where the future `WorkerService::call` returns stands. -/
inductive CallPhase
  /-- Sent to the main worker, counted as received, waiting on `res_rx`. -/
  | awaiting
  /-- Answered: the response body, wrapped in `CancelOnDrop`, is alive. -/
  | responded
  /-- The response body has been dropped. -/
  | bodyDropped
  /-- `res_rx` failed: counted as handled, the error returned. -/
  | failed
  /-- The future was dropped with its connection before `res_rx` yielded. -/
  | dropped
  deriving DecidableEq, Repr

/-- The phase after the connection task ends: a pending `call` future is
dropped, and so is a live response body. -/
def CallPhase.onClose : CallPhase → CallPhase
  | .awaiting => .dropped
  | .responded => .bodyDropped
  | ph => ph

/-- One request: its connection, its `call` future, its token and its
watcher task. -/
structure Request where
  conn : Nat
  phase : CallPhase
  /-- The request's child token is cancelled. -/
  cancelled : Bool
  /-- The watcher task still waits on the token. -/
  watching : Bool
  deriving DecidableEq, Repr

/-- How many times the counters have counted a request as handled: once
when `res_rx` failed, and once when its watcher fired. -/
def Request.timesHandled (r : Request) : Nat :=
  (if r.phase = .failed then 1 else 0) + (if r.watching then 0 else 1)

/-- The server's connections, requests and `SharedMetricSource` counters. -/
structure ServerState where
  /-- For each accepted connection, whether its task has ended. -/
  closed : List Bool
  requests : List Request
  /-- `received_requests`. -/
  received : Nat
  /-- `handled_requests`. -/
  handled : Nat
  /-- `active_io`. -/
  activeIo : Nat
  deriving DecidableEq, Repr

/-- What one task does next. -/
inductive Event
  /-- `accept_stream` spawns a connection task. -/
  | accept
  /-- A request arrives on a connection and `call` sends it to the main
  worker. -/
  | arrive (conn : Nat)
  /-- The main worker sends a response, or an error that `call` turns into a
  500 response; either way the body is wrapped in `CancelOnDrop`. -/
  | respond (req : Nat)
  /-- The main worker drops the response sender. -/
  | dropSender (req : Nat)
  /-- The client is done with the response body. -/
  | dropBody (req : Nat)
  /-- The connection task ends; its `drop_guard` cancels the connection's
  token. -/
  | close (conn : Nat)
  /-- A watcher task sees its token cancelled. -/
  | watch (req : Nat)
  deriving DecidableEq, Repr

namespace ServerState

/-- No connection yet. -/
def new : ServerState := ⟨[], [], 0, 0, 0⟩

/-- A request when connection `c` ends. -/
def closeRequest (c : Nat) (r : Request) : Request :=
  if r.conn = c then { r with phase := r.phase.onClose, cancelled := true } else r

/-- One event; `none` where it cannot happen. -/
def step (s : ServerState) : Event → Option ServerState
  | .accept => some { s with closed := s.closed ++ [false], activeIo := s.activeIo + 1 }
  | .arrive c =>
      if s.closed[c]? = some false then
        some { s with requests := s.requests ++ [⟨c, .awaiting, false, true⟩],
                      received := s.received + 1 }
      else none
  | .respond i =>
      match s.requests[i]? with
      | some r =>
          if r.phase = .awaiting then
            some { s with requests := s.requests.set i { r with phase := .responded } }
          else none
      | none => none
  | .dropSender i =>
      match s.requests[i]? with
      | some r =>
          if r.phase = .awaiting then
            some { s with requests := s.requests.set i { r with phase := .failed },
                          handled := s.handled + 1 }
          else none
      | none => none
  | .dropBody i =>
      match s.requests[i]? with
      | some r =>
          if r.phase = .responded then
            some { s with
              requests := s.requests.set i { r with phase := .bodyDropped, cancelled := true } }
          else none
      | none => none
  | .close c =>
      if s.closed[c]? = some false then
        some { s with closed := s.closed.set c true, requests := s.requests.map (closeRequest c),
                      activeIo := s.activeIo - 1 }
      else none
  | .watch i =>
      match s.requests[i]? with
      | some r =>
          if r.watching = true ∧ r.cancelled = true then
            some { s with requests := s.requests.set i { r with watching := false },
                          handled := s.handled + 1 }
          else none
      | none => none

variable {s : ServerState}

/-- A request waiting on `res_rx` has a live watcher, an uncancelled token
and an open connection. -/
structure Inv (s : ServerState) : Prop where
  awaiting : ∀ r ∈ s.requests, r.phase = .awaiting →
    r.cancelled = false ∧ r.watching = true ∧ s.closed[r.conn]? = some false

theorem inv_new : Inv new := ⟨fun r hr => by cases hr⟩

/-- Rewriting one request to a phase other than `awaiting` keeps the
invariant. -/
theorem Inv.set (h : Inv s) {i : Nat} {r : Request} (hr : r.phase ≠ .awaiting) :
    Inv { s with requests := s.requests.set i r } := by
  refine ⟨fun r' hr' hphase => ?_⟩
  rcases List.mem_or_eq_of_mem_set hr' with hold | rfl
  · exact h.awaiting r' hold hphase
  · exact absurd hphase hr

theorem Inv.accept (h : Inv s) :
    Inv { s with closed := s.closed ++ [false], activeIo := s.activeIo + 1 } := by
  refine ⟨fun r hr hphase => ?_⟩
  obtain ⟨hc, hw, hopen⟩ := h.awaiting r hr hphase
  have hlt : r.conn < s.closed.length := (List.getElem?_eq_some_iff.1 hopen).1
  refine ⟨hc, hw, ?_⟩
  rw [List.getElem?_append_left hlt]
  exact hopen

theorem Inv.arrive (h : Inv s) {c : Nat} (hc : s.closed[c]? = some false) :
    Inv { s with requests := s.requests ++ [⟨c, .awaiting, false, true⟩],
                 received := s.received + 1 } := by
  refine ⟨fun r hr hphase => ?_⟩
  rcases List.mem_append.1 hr with hold | hnew
  · exact h.awaiting r hold hphase
  · rw [List.mem_singleton] at hnew
    subst hnew
    exact ⟨rfl, rfl, hc⟩

theorem Inv.close (h : Inv s) (c : Nat) :
    Inv { s with closed := s.closed.set c true, requests := s.requests.map (closeRequest c),
                 activeIo := s.activeIo - 1 } := by
  refine ⟨fun r hr hphase => ?_⟩
  obtain ⟨r0, hr0, rfl⟩ := List.mem_map.1 hr
  unfold closeRequest at hphase ⊢
  by_cases hconn : r0.conn = c
  · rw [if_pos hconn] at hphase
    cases hph : r0.phase <;> simp [hph, CallPhase.onClose] at hphase
  · rw [if_neg hconn] at hphase ⊢
    obtain ⟨hcanc, hw, hopen⟩ := h.awaiting r0 hr0 hphase
    refine ⟨hcanc, hw, ?_⟩
    rw [List.getElem?_set_ne (Ne.symm hconn)]
    exact hopen

/-- Every event keeps the invariant. -/
theorem Inv.step (h : Inv s) {e : Event} {s' : ServerState} (hs : s.step e = some s') : Inv s' := by
  cases e with
  | accept =>
      cases hs
      exact h.accept
  | arrive c =>
      simp only [ServerState.step] at hs
      split at hs
      · rename_i hc
        cases hs
        exact h.arrive hc
      · cases hs
  | respond i =>
      simp only [ServerState.step] at hs
      split at hs
      · rename_i r hr
        split at hs
        · cases hs
          exact h.set (r := { r with phase := .responded }) (by simp)
        · cases hs
      · cases hs
  | dropSender i =>
      simp only [ServerState.step] at hs
      split at hs
      · rename_i r hr
        split at hs
        · cases hs
          have h' := h.set (i := i) (r := { r with phase := .failed }) (by simp)
          exact ⟨h'.awaiting⟩
        · cases hs
      · cases hs
  | dropBody i =>
      simp only [ServerState.step] at hs
      split at hs
      · rename_i r hr
        split at hs
        · cases hs
          exact h.set (r := { r with phase := .bodyDropped, cancelled := true }) (by simp)
        · cases hs
      · cases hs
  | close c =>
      simp only [ServerState.step] at hs
      split at hs
      · cases hs
        exact h.close c
      · cases hs
  | watch i =>
      simp only [ServerState.step] at hs
      split at hs
      · rename_i r hr
        split at hs
        · rename_i hwc
          cases hs
          have hnot : r.phase ≠ .awaiting := fun hphase => by
            have := (h.awaiting r (List.mem_of_getElem? hr) hphase).1
            rw [hwc.2] at this
            cases this
          have h' := h.set (i := i) (r := { r with watching := false }) hnot
          exact ⟨h'.awaiting⟩
        · cases hs
      · cases hs

theorem inv_inductive : Inductive step new Inv where
  init := inv_new
  step _ _ _ h hs := h.step hs

/-! ## What the counters count -/

theorem sum_map_set {α : Type} {f : α → Nat} :
    ∀ {l : List α} {i : Nat} {a : α} (b : α), l[i]? = some a →
      ((l.set i b).map f).sum + f a = (l.map f).sum + f b
  | [], _, _, _, h => by cases h
  | x :: l, 0, a, b, h => by
      simp only [List.getElem?_cons_zero, Option.some.injEq] at h
      subst h
      simp only [List.set_cons_zero, List.map_cons, List.sum_cons]
      omega
  | x :: l, i + 1, a, b, h => by
      simp only [List.getElem?_cons_succ] at h
      have ih := sum_map_set (f := f) b h
      simp only [List.set_cons_succ, List.map_cons, List.sum_cons]
      omega

/-- The counters against the requests: each request is received once and
handled `timesHandled` times. -/
structure Counts (s : ServerState) : Prop where
  received : s.received = s.requests.length
  handled : s.handled = (s.requests.map Request.timesHandled).sum

/-- Rewriting one request moves `handled` by the difference of the two
requests' counts. -/
theorem Counts.set (h : Counts s) {i : Nat} {r q : Request} (hr : s.requests[i]? = some r)
    {n : Nat} (hn : n + r.timesHandled = s.handled + q.timesHandled) :
    Counts { s with requests := s.requests.set i q, handled := n } := by
  have hsum := sum_map_set (f := Request.timesHandled) q hr
  constructor
  · simp [h.received]
  · show n = ((s.requests.set i q).map Request.timesHandled).sum
    rw [h.handled] at hn
    omega

theorem timesHandled_closeRequest (c : Nat) (r : Request) :
    (closeRequest c r).timesHandled = r.timesHandled := by
  unfold closeRequest
  split
  · cases hph : r.phase <;> simp [Request.timesHandled, CallPhase.onClose, hph]
  · rfl

/-- Every event keeps the counts. -/
theorem Counts.step (h : Counts s) {e : Event} {s' : ServerState} (hs : s.step e = some s') :
    Counts s' := by
  cases e with
  | accept =>
      cases hs
      exact ⟨h.received, h.handled⟩
  | arrive c =>
      simp only [ServerState.step] at hs
      split at hs
      · cases hs
        constructor
        · simp [h.received]
        · simp [h.handled, Request.timesHandled]
      · cases hs
  | respond i =>
      simp only [ServerState.step] at hs
      split at hs
      · rename_i r hr
        split at hs
        · rename_i hphase
          cases hs
          exact h.set (q := { r with phase := .responded }) hr (n := s.handled)
            (by simp [Request.timesHandled, hphase])
        · cases hs
      · cases hs
  | dropSender i =>
      simp only [ServerState.step] at hs
      split at hs
      · rename_i r hr
        split at hs
        · rename_i hphase
          cases hs
          exact h.set (q := { r with phase := .failed }) hr
            (by simp [Request.timesHandled, hphase]; omega)
        · cases hs
      · cases hs
  | dropBody i =>
      simp only [ServerState.step] at hs
      split at hs
      · rename_i r hr
        split at hs
        · rename_i hphase
          cases hs
          exact h.set (q := { r with phase := .bodyDropped, cancelled := true }) hr
            (n := s.handled) (by simp [Request.timesHandled, hphase])
        · cases hs
      · cases hs
  | close c =>
      simp only [ServerState.step] at hs
      split at hs
      · cases hs
        constructor
        · simp [h.received]
        · have hmap : (s.requests.map (closeRequest c)).map Request.timesHandled =
              s.requests.map Request.timesHandled := by
            simp [Function.comp_def, timesHandled_closeRequest]
          simp only [hmap]
          exact h.handled
      · cases hs
  | watch i =>
      simp only [ServerState.step] at hs
      split at hs
      · rename_i r hr
        split at hs
        · rename_i hwc
          cases hs
          exact h.set (q := { r with watching := false }) hr
            (by simp [Request.timesHandled, hwc.1]; omega)
        · cases hs
      · cases hs

theorem step_dropSender {i : Nat} {r : Request} (hr : s.requests[i]? = some r)
    (hphase : r.phase = .awaiting) :
    s.step (.dropSender i) =
      some { s with requests := s.requests.set i { r with phase := .failed },
                    handled := s.handled + 1 } := by
  simp [ServerState.step, hr, hphase]

theorem step_close {c : Nat} (hc : s.closed[c]? = some false) :
    s.step (.close c) =
      some { s with closed := s.closed.set c true, requests := s.requests.map (closeRequest c),
                    activeIo := s.activeIo - 1 } := by
  simp [ServerState.step, hc]

theorem step_watch {i : Nat} {r : Request} (hr : s.requests[i]? = some r)
    (hw : r.watching = true) (hc : r.cancelled = true) :
    s.step (.watch i) =
      some { s with requests := s.requests.set i { r with watching := false },
                    handled := s.handled + 1 } := by
  simp [ServerState.step, hr, hw, hc]

theorem handled_twice (s : ServerState) (hs : Reachable step new s) (i : Nat) (r : Request)
    (hr : s.requests[i]? = some r) (hphase : r.phase = .awaiting) :
    ∃ s', exec step s [.dropSender i, .close r.conn, .watch i] = some s' ∧
      s'.received = s.received ∧ s'.handled = s.handled + 2 := by
  obtain ⟨-, hw, hopen⟩ := (inv_inductive.reachable hs).awaiting r (List.mem_of_getElem? hr)
    hphase
  have hlen : i < s.requests.length := (List.getElem?_eq_some_iff.1 hr).1
  have h1 := step_dropSender hr hphase
  have h2 := step_close
    (s := { s with requests := s.requests.set i { r with phase := .failed },
                   handled := s.handled + 1 }) hopen
  have hr2 : ((s.requests.set i { r with phase := .failed }).map (closeRequest r.conn))[i]? =
      some { r with phase := .failed, cancelled := true } := by
    have hlen' : i < (s.requests.map (closeRequest r.conn)).length := by simpa using hlen
    simp [List.map_set, List.getElem?_set_self hlen', closeRequest, CallPhase.onClose]
  have h3 := step_watch (r := { r with phase := .failed, cancelled := true })
    (s := { s with closed := s.closed.set r.conn true,
                   requests := (s.requests.set i { r with phase := .failed }).map
                     (closeRequest r.conn),
                   handled := s.handled + 1, activeIo := s.activeIo - 1 }) hr2 hw rfl
  rw [exec_cons, h1, Option.bind_some, exec_cons, h2, Option.bind_some, exec_cons, h3,
    Option.bind_some, exec_nil]
  exact ⟨_, rfl, rfl, rfl⟩

/-- The failing run: one connection, one request, the main worker drops
the response sender, the connection ends.  One request is received and two
are handled. -/
theorem handled_twice_one_request :
    ∃ s', exec step ⟨[false], [⟨0, .awaiting, false, true⟩], 1, 0, 1⟩
        [.dropSender 0, .close 0, .watch 0] = some s' ∧
      s'.received = 1 ∧ s'.handled = 0 + 2 :=
  handled_twice ⟨[false], [⟨0, .awaiting, false, true⟩], 1, 0, 1⟩ ⟨[.accept, .arrive 0], rfl⟩ 0
    ⟨0, .awaiting, false, true⟩ rfl rfl

end ServerState

end EdgeRuntime.Server
