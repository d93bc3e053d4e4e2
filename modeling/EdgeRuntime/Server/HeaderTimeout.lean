import Mathlib
import EdgeRuntime.Verified.Machine

/-!
# The request header read timeout

With `request_read_timeout_ms` set, `accept_stream` (crates/base/src/server.rs)
wraps each connection in `timeout::Stream::with_timeout` and its service in
`timeout::Service` (crates/base/src/timeout.rs), joined by an unbounded
channel of `timeout::State` messages.  `Service::call` sends `Wait` as it
hands a request on; the response's `Body` sends `Reset` when its data runs
out or it reports the end of the stream.  On each `poll_read` the stream
takes at most one message off the channel (`Reset` restarts the clock, `Wait`
stops it, a closed channel finishes it), and then, unless it waits, fails
with `request header read timed out` once the clock's deadline has passed.

The model has one state per connection: the clock, the stream's timer, the
messages in flight, and whether a sender is alive.  The stream's reads, the
messages the service sends, the senders' drop and the passing of time are
events, interleaved in any order.  A read that times out ends the
connection, so no run goes on after it.  Beside the state, a record of the
run (`History`) keeps what the timeout is measured against: the last
message the service sent, and the instant it last sent `Reset`.

## Main results

* `pollRead_of_waiting`: with a positive timeout, in every run, a read does
  not time out while the last message the service sent is `Wait`, that is
  while a request is served, even before the stream has taken the message
  off the channel.
* `pollRead_timedOut`: in every run, a read times out only once the timeout
  has passed since the last response ended, or since the connection was
  accepted.
-/

namespace EdgeRuntime.Server

open EdgeRuntime.Verified.Machine

/-- `timeout::State`. -/
inductive TimeoutState
  /-- A request is being served: stop the clock. -/
  | wait
  /-- A response has ended: restart the clock. -/
  | reset
  deriving DecidableEq, Repr

/-- `StreamKind::UseTimeout`, with the instant its `sleep` fires at. -/
structure UseTimeout where
  deadline : Nat
  duration : Nat
  waiting : Bool
  finished : Bool
  deriving DecidableEq, Repr

/-- A connection with a read timeout: the clock, the stream's timer, the
messages sent and not yet received, and whether a sender is alive. -/
structure TimedConn where
  now : Nat
  timer : UseTimeout
  queue : List TimeoutState
  senders : Bool
  deriving DecidableEq, Repr

/-- What `Stream::poll_read` does: fail with `request header read timed
out`, or read from the inner stream. -/
inductive ReadResult
  | timedOut
  | inner
  deriving DecidableEq, Repr

/-- `UnboundedReceiver::poll_recv`: `Ready(Some(m))` for the oldest message,
`Ready(None)` once the channel is empty and every sender dropped, and
`Pending` (`none`) otherwise; with the messages left. -/
def pollRecv : List TimeoutState → Bool → Option (Option TimeoutState) × List TimeoutState
  | m :: rest, _ => (some (some m), rest)
  | [], true => (none, [])
  | [], false => (some none, [])

/-- The timer after what `poll_recv` gave at instant `now`. -/
def UseTimeout.recv (t : UseTimeout) (now : Nat) : Option (Option TimeoutState) → UseTimeout
  | some (some .reset) => { t with waiting := false, deadline := now + t.duration }
  | some (some .wait) => { t with waiting := true }
  | some none => { t with finished := true }
  | none => t

namespace TimedConn

/-- `Stream::with_timeout` on a connection accepted at instant `0`. -/
def withTimeout (duration : Nat) : TimedConn :=
  ⟨0, ⟨duration, duration, false, false⟩, [], true⟩

/-- The first half of `Stream::poll_read`: unless the channel is finished,
take what `poll_recv` gives. -/
def receive (c : TimedConn) : TimedConn :=
  if c.timer.finished then c
  else
    let (msg, queue) := pollRecv c.queue c.senders
    { c with timer := c.timer.recv c.now msg, queue := queue }

/-- `Stream::poll_read` with `UseTimeout`: receive, then, unless waiting,
time out once the deadline has passed. -/
def pollRead (c : TimedConn) : TimedConn × ReadResult :=
  if c.receive.timer.waiting = false ∧ c.receive.timer.deadline ≤ c.now then
    (c.receive, .timedOut)
  else (c.receive, .inner)

theorem pollRead_fst (c : TimedConn) : c.pollRead.1 = c.receive := by
  unfold pollRead
  split <;> rfl

/-- `tx.send(m)`, which the service's and the bodies' senders do: the
message joins the channel. -/
def send (c : TimedConn) (m : TimeoutState) : Option TimedConn :=
  if c.senders then some { c with queue := c.queue ++ [m] } else none

/-- What happens next on the connection. -/
inductive Event
  /-- Time passes. -/
  | tick
  /-- hyper reads from the stream. -/
  | read
  /-- `Service::call` hands a request on and sends `Wait`. -/
  | call
  /-- The response body ends, `poll_data` yielding `None` or `is_end_stream`
  true, and sends `Reset`. -/
  | bodyEnd
  /-- The service and every response body are dropped with their senders. -/
  | dropSenders
  deriving DecidableEq, Repr

/-- One event; a read that times out ends the connection, so no run goes on
after it. -/
def step (c : TimedConn) : Event → Option TimedConn
  | .tick => some { c with now := c.now + 1 }
  | .read =>
      match c.pollRead with
      | (c', .inner) => some c'
      | (_, .timedOut) => none
  | .call => c.send .wait
  | .bodyEnd => c.send .reset
  | .dropSenders => some { c with senders := false }

/-! ## The record of a run -/

/-- What the timeout is measured against, recorded along a run: the clock,
the last message the service sent, and the instant it last sent `Reset`
(`0`, when the connection was accepted, before any). -/
structure History where
  clock : Nat
  lastSent : Option TimeoutState
  resetAt : Nat
  deriving DecidableEq, Repr

/-- The record of no event. -/
def History.start : History := ⟨0, none, 0⟩

/-- The record after one more event. -/
def History.record (h : History) : Event → History
  | .tick => { h with clock := h.clock + 1 }
  | .call => { h with lastSent := some .wait }
  | .bodyEnd => { h with lastSent := some .reset, resetAt := h.clock }
  | .read => h
  | .dropSenders => h

/-- The timer agrees with the record of the run: the invariant of every
connection a run with timeout `d` reaches. -/
structure Agrees (d : Nat) (c : TimedConn) (h : History) : Prop where
  duration : c.timer.duration = d
  clock : c.now = h.clock
  resetAt_le : h.resetAt ≤ h.clock
  /-- The newest message in flight is the last one sent. -/
  newest : ∀ m, c.queue.getLast? = some m → h.lastSent = some m
  /-- With nothing in flight, the timer waits just when the last message
  sent was `Wait`. -/
  waiting : c.queue = [] → (c.timer.waiting = true ↔ h.lastSent = some .wait)
  /-- With no `Reset` in flight, the deadline is at least the timeout after
  the last one sent. -/
  deadline : (∀ m ∈ c.queue, m = .wait) → h.resetAt + d ≤ c.timer.deadline
  finished : c.timer.finished = true → c.queue = [] ∧ c.senders = false

variable {d : Nat} {c : TimedConn} {h : History}

theorem agrees_withTimeout (d : Nat) : Agrees d (withTimeout d) History.start where
  duration := rfl
  clock := rfl
  resetAt_le := le_refl _
  newest := fun _ hm => by cases hm
  waiting := fun _ => by simp [withTimeout, History.start]
  deadline := fun _ => by simp [withTimeout, History.start]
  finished := fun hf => by cases hf

theorem Agrees.tick (hc : Agrees d c h) :
    Agrees d { c with now := c.now + 1 } (h.record .tick) where
  duration := hc.duration
  clock := by simp [History.record, hc.clock]
  resetAt_le := Nat.le_succ_of_le hc.resetAt_le
  newest := hc.newest
  waiting := hc.waiting
  deadline := hc.deadline
  finished := hc.finished

theorem Agrees.dropSenders (hc : Agrees d c h) :
    Agrees d { c with senders := false } (h.record .dropSenders) where
  duration := hc.duration
  clock := hc.clock
  resetAt_le := hc.resetAt_le
  newest := hc.newest
  waiting := hc.waiting
  deadline := hc.deadline
  finished := fun hf => ⟨(hc.finished hf).1, rfl⟩

/-- A message sent joins the channel as its newest: `Wait` leaves the
deadline's bound alone, and `Reset` is the new last one sent. -/
theorem Agrees.send (hc : Agrees d c h) {m : TimeoutState} (hs : c.senders = true) :
    Agrees d { c with queue := c.queue ++ [m] }
      { h with lastSent := some m, resetAt := if m = .reset then h.clock else h.resetAt } where
  duration := hc.duration
  clock := hc.clock
  resetAt_le := by
    split
    · exact le_refl _
    · exact hc.resetAt_le
  newest := fun m' hm' => by
    rw [List.getLast?_concat] at hm'
    exact hm'
  waiting := fun hq => absurd hq (by simp)
  deadline := fun hwait => by
    have hm : m = .wait := hwait m (by simp)
    subst hm
    exact hc.deadline fun m' hm' => hwait m' (List.mem_append_left _ hm')
  finished := fun hf => absurd hs (by simp [(hc.finished hf).2])

/-- Taking the oldest message off the channel: a `Reset` sets the deadline
a timeout after the present, which is after the last `Reset` sent. -/
theorem Agrees.recv_cons (hc : Agrees d c h) {m : TimeoutState} {rest : List TimeoutState}
    (hq : c.queue = m :: rest) (hf : c.timer.finished = false) :
    Agrees d { c with timer := c.timer.recv c.now (some (some m)), queue := rest } h := by
  have hlast : ∀ m', rest.getLast? = some m' → h.lastSent = some m' := fun m' hm' =>
    hc.newest m' (by rw [hq, List.getLast?_cons, hm']; rfl)
  cases m with
  | wait =>
      refine ⟨hc.duration, hc.clock, hc.resetAt_le, hlast, fun hrest => ?_, fun hwait => ?_,
        fun hfin => absurd hfin (by simp [UseTimeout.recv, hf])⟩
      · subst hrest
        simp [UseTimeout.recv, hc.newest .wait (by simp [hq])]
      · exact hc.deadline fun m' hm' => by
          rw [hq] at hm'
          rcases List.mem_cons.1 hm' with rfl | hm'
          · rfl
          · exact hwait m' hm'
  | reset =>
      refine ⟨hc.duration, hc.clock, hc.resetAt_le, hlast, fun hrest => ?_, fun _ => ?_,
        fun hfin => absurd hfin (by simp [UseTimeout.recv, hf])⟩
      · subst hrest
        simp [UseTimeout.recv, hc.newest .reset (by simp [hq])]
      · show h.resetAt + d ≤ c.now + c.timer.duration
        rw [hc.duration, hc.clock]
        exact Nat.add_le_add_right hc.resetAt_le d

theorem Agrees.receive (hc : Agrees d c h) : Agrees d c.receive h := by
  unfold TimedConn.receive
  split
  · exact hc
  · rename_i hf
    have hf' : c.timer.finished = false := by simpa using hf
    cases hq : c.queue with
    | cons m rest =>
        simp only [pollRecv]
        exact hc.recv_cons hq hf'
    | nil =>
        cases hs : c.senders with
        | true =>
            simp only [pollRecv, UseTimeout.recv]
            rw [← hq, ← hs]
            exact hc
        | false =>
            simp only [pollRecv]
            refine ⟨hc.duration, hc.clock, hc.resetAt_le, fun m hm => (by cases hm),
              fun _ => hc.waiting hq, fun _ => hc.deadline (by simp [hq]), fun _ => ⟨rfl, rfl⟩⟩

/-- Every event keeps the agreement. -/
theorem Agrees.step (hc : Agrees d c h) {e : Event} {c' : TimedConn} (hs : c.step e = some c') :
    Agrees d c' (h.record e) := by
  cases e with
  | tick =>
      cases hs
      exact hc.tick
  | read =>
      have hfst := pollRead_fst c
      simp only [TimedConn.step] at hs
      rcases hp : c.pollRead with ⟨c'', r⟩
      rw [hp] at hs hfst
      cases r with
      | timedOut => cases hs
      | inner =>
          cases hs
          subst hfst
          exact hc.receive
  | call | bodyEnd =>
      -- both send a message: `Wait` for a call, `Reset` for the end of a body
      simp only [TimedConn.step, TimedConn.send] at hs
      split at hs
      · rename_i hsend
        cases hs
        exact hc.send hsend
      · cases hs
  | dropSenders =>
      cases hs
      exact hc.dropSenders

/-- Every run agrees with its record. -/
theorem agrees_exec {es : List Event} {c : TimedConn}
    (hrun : exec step (withTimeout d) es = some c) :
    Agrees d c (es.foldl History.record History.start) :=
  exec_preserves_record History.record (fun _ _ _ _ hc hs => hc.step hs) es _ _ c
    (agrees_withTimeout d) hrun

/-! ## What a read finds -/

/-- With nothing in flight, the timer waits, or its deadline is a timeout
after the last `Reset`, and no request is being served. -/
theorem Agrees.waiting_or_deadline (hc : Agrees d c h) (hq : c.queue = []) :
    c.timer.waiting = true ∨
      (h.resetAt + d ≤ c.timer.deadline ∧ (h.lastSent = some .wait → c.now + d ≤ c.timer.deadline)) := by
  by_cases hw : c.timer.waiting = true
  · exact .inl hw
  · refine .inr ⟨hc.deadline (by simp [hq]), fun hlast => ?_⟩
    exact absurd ((hc.waiting hq).2 hlast) hw

/-- After `poll_read` has received, the timer waits, or its deadline is a
timeout after the last `Reset` sent, and, while a request is being served,
a timeout after the present: the `Reset` before the request's `Wait`,
taken first, restarts the clock. -/
theorem Agrees.receive_timer (hc : Agrees d c h) :
    c.receive.timer.waiting = true ∨
      (h.resetAt + d ≤ c.receive.timer.deadline ∧
        (h.lastSent = some .wait → c.now + d ≤ c.receive.timer.deadline)) := by
  unfold TimedConn.receive
  split
  · rename_i hf
    exact hc.waiting_or_deadline (hc.finished hf).1
  · cases hq : c.queue with
    | cons m rest =>
        cases m with
        | wait => exact .inl rfl
        | reset =>
            -- the deadline moves to a timeout after the present
            have hnow : h.resetAt ≤ c.now := hc.clock ▸ hc.resetAt_le
            refine .inr ⟨?_, fun _ => ?_⟩
            · show h.resetAt + d ≤ c.now + c.timer.duration
              rw [hc.duration]
              omega
            · show c.now + d ≤ c.now + c.timer.duration
              rw [hc.duration]
    | nil =>
        -- nothing received: the timer is as it was, whether a sender is alive or not
        cases c.senders <;> exact hc.waiting_or_deadline hq

/-- With a positive timeout, in every run, a read does not time out while the
last message the service sent is `Wait`, that is while a request is being
served, even before the stream has taken the message off the channel. -/
theorem pollRead_of_waiting {es : List Event} {c : TimedConn}
    (hrun : exec step (withTimeout d) es = some c)
    (hwait : (es.foldl History.record History.start).lastSent = some .wait) (hd : 0 < d) :
    c.pollRead.2 = .inner := by
  have hsafe := (agrees_exec hrun).receive_timer
  unfold pollRead
  rw [if_neg]
  rintro ⟨hw, hle⟩
  rcases hsafe with hw' | ⟨-, hdeadline⟩
  · rw [hw] at hw'
    cases hw'
  · have := hdeadline hwait
    omega

/-- A connection with timeout `2`: a request is handed on, and three instants
pass before the stream reads, past the deadline; the read takes the `Wait`
first and does not time out. -/
theorem pollRead_of_waiting_late :
    exec step (withTimeout 2) [.call, .tick, .tick, .tick] = some ⟨3, ⟨2, 2, false, false⟩, [.wait], true⟩ ∧
      ([Event.call, .tick, .tick, .tick].foldl History.record History.start).lastSent = some .wait ∧
      0 < 2 ∧ (TimedConn.pollRead ⟨3, ⟨2, 2, false, false⟩, [.wait], true⟩).2 = .inner := by
  have hrun : exec step (withTimeout 2) [.call, .tick, .tick, .tick] =
      some ⟨3, ⟨2, 2, false, false⟩, [.wait], true⟩ := by decide
  have hwait : ([Event.call, .tick, .tick, .tick].foldl History.record History.start).lastSent =
      some .wait := by decide
  exact ⟨hrun, hwait, by decide, pollRead_of_waiting hrun hwait (by decide)⟩

/-- The timeout must be positive: with `0`, a request handed on after a
response ended is timed out by the read that takes the response's `Reset`. -/
example :
    exec step (withTimeout 0) [.call, .read, .bodyEnd, .call] =
        some ⟨0, ⟨0, 0, true, false⟩, [.reset, .wait], true⟩ ∧
      (TimedConn.pollRead ⟨0, ⟨0, 0, true, false⟩, [.reset, .wait], true⟩).2 = .timedOut := by
  decide

/-- In every run, a read times out only once the timeout has passed since
the last response ended, or since the connection was accepted. -/
theorem pollRead_timedOut {es : List Event} {c : TimedConn}
    (hrun : exec step (withTimeout d) es = some c) (hout : c.pollRead.2 = .timedOut) :
    (es.foldl History.record History.start).resetAt + d ≤ c.now := by
  have htimer := (agrees_exec hrun).receive_timer
  unfold pollRead at hout
  split at hout
  · rename_i hfire
    obtain ⟨hw, hle⟩ := hfire
    rcases htimer with hw' | ⟨hdeadline, -⟩
    · rw [hw] at hw'
      cases hw'
    · omega
  · cases hout

/-- A connection with timeout `2` whose response ended at instant `1`: two
reads at instant `1` take the `Wait` and the `Reset`, and the read at
instant `3` times out, two instants after the response ended. -/
theorem pollRead_timedOut_afterReset :
    exec step (withTimeout 2) [.call, .tick, .bodyEnd, .read, .read, .tick, .tick] =
        some ⟨3, ⟨3, 2, false, false⟩, [], true⟩ ∧
      (TimedConn.pollRead ⟨3, ⟨3, 2, false, false⟩, [], true⟩).2 = .timedOut ∧
      ([Event.call, .tick, .bodyEnd, .read, .read, .tick, .tick].foldl History.record History.start).resetAt + 2 ≤
        3 := by
  have hrun : exec step (withTimeout 2) [.call, .tick, .bodyEnd, .read, .read, .tick, .tick] =
      some ⟨3, ⟨3, 2, false, false⟩, [], true⟩ := by decide
  have hout : (TimedConn.pollRead ⟨3, ⟨3, 2, false, false⟩, [], true⟩).2 = .timedOut := by decide
  exact ⟨hrun, hout, pollRead_timedOut hrun hout⟩

end TimedConn

end EdgeRuntime.Server
