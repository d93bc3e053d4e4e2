import Mathlib
import EdgeRuntime.Verified.Machine

/-!
# The idle timeouts of relayed connections and streamed responses

Two wrappers of crates/base/src/timeout.rs end a stream that has gone
quiet.  `ReadTimeoutStream` wraps the upstream of an upgraded connection,
which `relay_upgraded_request_and_response`
(crates/base/src/rt_worker/worker_ctx.rs) copies both ways: it is built by
`with_timeout` when an idle timeout is set and by `with_bypass` otherwise.
`CancelOnWriteTimeout` wraps the body of a streamed response, one without
`content-length`, which `handle_request` hands back when a request idle
timeout is set.

Both hold a `Sleep` and poll the inner stream first.  An answer that is
ready is passed on and moves the sleep to a timeout after the present; a
pending one, once the sleep has fired, ends the stream: a read fails with
`socket timed out`, and a body ends.

A `Sleep` is the instant it fires at, and the clock counts milliseconds; the
time driver fires a sleep once its deadline has passed.  The inner stream's
answers are the inputs of a run.  Beside the state, a record of the run
(`Activity`) keeps the instant the inner stream last answered.

## Main results

* `pollRead_relayUpstream`: after any run, a read of the relayed upstream
  gives the inner stream's answer, except that, with an idle timeout, a
  pending read fails with `socket timed out` once the inner stream has been
  quiet for the timeout since the upstream was built or last answered.
* `pollNext_responseBody`: after any run, the body handed back gives the
  worker's body's answer, except that a streamed response with an idle
  timeout ends once the worker's body has been quiet for the timeout.
-/

namespace EdgeRuntime.Server

open EdgeRuntime.Verified.Machine

/-- `std::task::Poll`. -/
inductive Poll (α : Type) where
  | ready (v : α)
  | pending
  deriving DecidableEq, Repr

/-- `tokio::time::Sleep`: the instant it fires at. -/
structure Sleep where
  deadline : Nat
  deriving DecidableEq, Repr

/-- `tokio::time::sleep(duration)` at instant `now`. -/
def sleep (now duration : Nat) : Sleep := ⟨now + duration⟩

/-- `Sleep::reset`. -/
def Sleep.reset (_ : Sleep) (deadline : Nat) : Sleep := ⟨deadline⟩

/-- `Sleep::poll` at instant `now`. -/
def Sleep.poll (s : Sleep) (now : Nat) : Poll Unit :=
  if s.deadline ≤ now then .ready () else .pending

variable {α : Type}

/-- The body both wrappers share, for a wrapper that ends its stream with
`fire`: an answer of the inner stream that is ready is passed on and moves
the sleep to `duration` after `now`; a pending one gives `fire` once the
sleep has fired.  With the sleep afterwards. -/
def pollIdle (duration : Nat) (s : Sleep) (now : Nat) (fire : α) : Poll α → Sleep × Poll α
  | .ready v => (s.reset (now + duration), .ready v)
  | .pending =>
      match s.poll now with
      | .ready () => (s, .ready fire)
      | .pending => (s, .pending)

/-- `std::io::ErrorKind`, with the kind a timed-out read reports. -/
inductive IoErrorKind
  | timedOut
  | other
  deriving DecidableEq, Repr

/-- `std::io::Error`. -/
structure IoError where
  kind : IoErrorKind
  msg : String
  deriving DecidableEq, Repr

/-- The error a read of an idle `ReadTimeoutStream` fails with. -/
def socketTimedOut : IoError := ⟨.timedOut, "socket timed out"⟩

/-- `ReadTimeoutOp`. -/
inductive ReadTimeoutOp
  | useTimeout (duration : Nat) (sleep : Sleep)
  | bypass
  deriving DecidableEq, Repr

/-- `ReadTimeoutStream`; the answers of its inner stream are left to the run. -/
structure ReadTimeoutStream where
  op : ReadTimeoutOp
  deriving DecidableEq, Repr

namespace ReadTimeoutStream

/-- `ReadTimeoutStream::with_timeout` at instant `now`. -/
def withTimeout (now duration : Nat) : ReadTimeoutStream := ⟨.useTimeout duration (sleep now duration)⟩

/-- `ReadTimeoutStream::with_bypass`. -/
def withBypass : ReadTimeoutStream := ⟨.bypass⟩

/-- `ReadTimeoutStream::poll_read` at instant `now`, where the inner stream
answers `inner`. -/
def pollRead (s : ReadTimeoutStream) (now : Nat) (inner : Poll (Except IoError Unit)) :
    ReadTimeoutStream × Poll (Except IoError Unit) :=
  match s.op with
  | .bypass => (s, inner)
  | .useTimeout duration sleep =>
      let polled := pollIdle duration sleep now (.error socketTimedOut) inner
      (⟨.useTimeout duration polled.1⟩, polled.2)

end ReadTimeoutStream

/-- The upstream `relay_upgraded_request_and_response` copies from, built at
instant `now`. -/
def relayUpstream (maybeIdleTimeout : Option Nat) (now : Nat) : ReadTimeoutStream :=
  match maybeIdleTimeout with
  | some timeoutMs => .withTimeout now timeoutMs
  | none => .withBypass

/-- `CancelOnWriteTimeout`; the answers of its inner stream are left to the
run. -/
structure CancelOnWriteTimeout where
  duration : Nat
  sleep : Sleep
  deriving DecidableEq, Repr

namespace CancelOnWriteTimeout

/-- `CancelOnWriteTimeout::new` at instant `now`. -/
def new (now duration : Nat) : CancelOnWriteTimeout := ⟨duration, Server.sleep now duration⟩

/-- `CancelOnWriteTimeout::poll_next` at instant `now`, where the inner
stream answers `inner`. -/
def pollNext (s : CancelOnWriteTimeout) (now : Nat) (inner : Poll (Option α)) :
    CancelOnWriteTimeout × Poll (Option α) :=
  let polled := pollIdle s.duration s.sleep now none inner
  ({ s with sleep := polled.1 }, polled.2)

end CancelOnWriteTimeout

/-- The body of the response `handle_request` hands back: the worker's own,
or wrapped by `Body::wrap_stream` in a `CancelOnWriteTimeout`. -/
inductive ResponseBody
  | plain
  | cancelOnWriteTimeout (c : CancelOnWriteTimeout)
  deriving DecidableEq, Repr

/-- The body `handle_request` hands back at instant `now`: a streamed
response, with no `content-length`, is wrapped when a request idle timeout
is set. -/
def responseBody (maybeRequestIdleTimeout : Option Nat) (hasContentLength : Bool) (now : Nat) :
    ResponseBody :=
  match maybeRequestIdleTimeout with
  | some timeoutMs =>
      let isStreamedResponse := !hasContentLength
      if isStreamedResponse then .cancelOnWriteTimeout (.new now timeoutMs) else .plain
  | none => .plain

/-- A poll of the response body: hyper polls the body, and a wrapped body
polls its stream. -/
def ResponseBody.pollNext (b : ResponseBody) (now : Nat) (inner : Poll (Option α)) :
    ResponseBody × Poll (Option α) :=
  match b with
  | .plain => (.plain, inner)
  | .cancelOnWriteTimeout c =>
      let polled := c.pollNext now inner
      (.cancelOnWriteTimeout polled.1, polled.2)

/-! ## Runs -/

/-- What happens next to a wrapped stream: time passes, or the wrapper is
polled and the inner stream answers `inner`. -/
inductive IdleEvent (α : Type) where
  | tick
  | poll (inner : Poll α)
  deriving DecidableEq, Repr

/-- One event of a run of a wrapper polled by `poll`, beside the clock. -/
def stepPolls {σ : Type} (poll : σ → Nat → Poll α → σ × Poll α) : Nat × σ → IdleEvent α → Nat × σ
  | (now, s), .tick => (now + 1, s)
  | (now, s), .poll inner => (now, (poll s now inner).1)

/-- What an idle timeout is measured against, recorded along a run: the
clock, and the instant the inner stream last answered (the instant the
wrapper was built, before any answer). -/
structure Activity where
  clock : Nat
  lastReady : Nat
  deriving DecidableEq, Repr

/-- The record of no event, for a wrapper built at instant `now`. -/
def Activity.start (now : Nat) : Activity := ⟨now, now⟩

/-- The record after one more event. -/
def Activity.record (h : Activity) : IdleEvent α → Activity
  | .tick => { h with clock := h.clock + 1 }
  | .poll (.ready _) => { h with lastReady := h.clock }
  | .poll .pending => h

/-- How long the inner stream has been quiet. -/
def Activity.idle (h : Activity) : Nat := h.clock - h.lastReady

/-- What an idle timeout is for: a poll gives the inner stream's answer,
except that, with a timeout, a pending one after at least the timeout of
quiet gives `fire`. -/
def idleAnswer (timeout : Option Nat) (idle : Nat) (fire : α) : Poll α → Poll α
  | .ready v => .ready v
  | .pending =>
      match timeout with
      | some d => if d ≤ idle then .ready fire else .pending
      | none => .pending

/-! ## The shared sleep -/

/-- A sleep agrees with the record of a run with timeout `d`: the clock is
the record's, and the sleep fires a timeout after the inner stream last
answered. -/
structure Tracks (d now : Nat) (s : Sleep) (h : Activity) : Prop where
  clock : now = h.clock
  lastReady_le : h.lastReady ≤ h.clock
  deadline : s.deadline = h.lastReady + d

variable {d now : Nat} {s : Sleep} {h : Activity}

theorem tracks_sleep (d now : Nat) : Tracks d now (sleep now d) (Activity.start now) :=
  ⟨rfl, le_refl _, rfl⟩

theorem Tracks.tick (ht : Tracks d now s h) :
    Tracks d (now + 1) s (h.record (α := α) .tick) where
  clock := by rw [ht.clock]; rfl
  lastReady_le := Nat.le_succ_of_le ht.lastReady_le
  deadline := ht.deadline

theorem pollIdle_pending_fst (fire : α) : (pollIdle d s now fire .pending).1 = s := by
  simp only [pollIdle]
  split <;> rfl

/-- A poll keeps the agreement: an answer moves the sleep a timeout after
the present, and a pending poll leaves it. -/
theorem Tracks.poll (ht : Tracks d now s h) (fire : α) (inner : Poll α) :
    Tracks d now (pollIdle d s now fire inner).1 (h.record (.poll inner)) := by
  cases inner with
  | ready v =>
      exact ⟨ht.clock, le_refl _, by simp [pollIdle, Sleep.reset, Activity.record, ht.clock]⟩
  | pending =>
      rw [pollIdle_pending_fst]
      exact ht

/-- The answer of a poll whose sleep agrees with the record is the idle
timeout's: the sleep has fired just when the inner stream has been quiet
for the timeout. -/
theorem Tracks.answer (ht : Tracks d now s h) (fire : α) (inner : Poll α) :
    (pollIdle d s now fire inner).2 = idleAnswer (some d) h.idle fire inner := by
  cases inner with
  | ready v => rfl
  | pending =>
      have hfired : s.deadline ≤ now ↔ d ≤ h.idle := by
        have hle := ht.lastReady_le
        rw [ht.deadline, ht.clock, Activity.idle]
        omega
      simp only [pollIdle, Sleep.poll, idleAnswer]
      by_cases hd : d ≤ h.idle
      · rw [if_pos (hfired.2 hd), if_pos hd]
      · rw [if_neg (mt hfired.1 hd), if_neg hd]

/-! ## The relayed upstream -/

/-- The upstream agrees with the record of a run: its timeout is the one it
was built with, and its sleep agrees with the record. -/
def UpstreamAgrees (timeout : Option Nat) (st : Nat × ReadTimeoutStream) (h : Activity) : Prop :=
  match timeout with
  | some d => ∃ s, st.2.op = .useTimeout d s ∧ Tracks d st.1 s h
  | none => st.2.op = .bypass

variable {timeout : Option Nat} {st : Nat × ReadTimeoutStream}

theorem upstreamAgrees_relayUpstream (timeout : Option Nat) (start : Nat) :
    UpstreamAgrees timeout (start, relayUpstream timeout start) (Activity.start start) := by
  cases timeout with
  | some d => exact ⟨_, rfl, tracks_sleep d start⟩
  | none => rfl

theorem pollRead_bypass {u : ReadTimeoutStream} (hu : u.op = .bypass) (now : Nat)
    (inner : Poll (Except IoError Unit)) : u.pollRead now inner = (u, inner) := by
  unfold ReadTimeoutStream.pollRead
  rw [hu]

theorem pollRead_useTimeout {u : ReadTimeoutStream} (hu : u.op = .useTimeout d s) (now : Nat)
    (inner : Poll (Except IoError Unit)) :
    u.pollRead now inner =
      (⟨.useTimeout d (pollIdle d s now (.error socketTimedOut) inner).1⟩,
        (pollIdle d s now (.error socketTimedOut) inner).2) := by
  unfold ReadTimeoutStream.pollRead
  rw [hu]

/-- Every event keeps the agreement. -/
theorem UpstreamAgrees.step (hu : UpstreamAgrees timeout st h) (e : IdleEvent (Except IoError Unit)) :
    UpstreamAgrees timeout (stepPolls ReadTimeoutStream.pollRead st e) (h.record e) := by
  obtain ⟨now, u⟩ := st
  cases timeout with
  | none =>
      cases e with
      | tick => exact hu
      | poll inner =>
          show (u.pollRead now inner).1.op = .bypass
          rw [pollRead_bypass hu]
          exact hu
  | some d =>
      obtain ⟨s, hop, ht⟩ := hu
      cases e with
      | tick => exact ⟨s, hop, ht.tick⟩
      | poll inner =>
          refine ⟨_, ?_, ht.poll (.error socketTimedOut) inner⟩
          show (u.pollRead now inner).1.op = _
          rw [pollRead_useTimeout hop]

theorem UpstreamAgrees.answer (hu : UpstreamAgrees timeout st h) (inner : Poll (Except IoError Unit)) :
    (st.2.pollRead st.1 inner).2 = idleAnswer timeout h.idle (.error socketTimedOut) inner := by
  cases timeout with
  | none =>
      rw [pollRead_bypass hu]
      cases inner <;> rfl
  | some d =>
      obtain ⟨s, hop, ht⟩ := hu
      rw [pollRead_useTimeout hop]
      exact ht.answer _ inner

/-- After any run, a read of the upstream `relay_upgraded_request_and_response`
copies from gives the inner stream's answer, except that, with an idle
timeout, a pending read fails with `socket timed out` once the inner stream
has been quiet for the timeout since the upstream was built or last
answered. -/
theorem pollRead_relayUpstream (maybeIdleTimeout : Option Nat) (start : Nat)
    (es : List (IdleEvent (Except IoError Unit))) (inner : Poll (Except IoError Unit)) :
    let st := es.foldl (stepPolls ReadTimeoutStream.pollRead) (start, relayUpstream maybeIdleTimeout start)
    (st.2.pollRead st.1 inner).2 =
      idleAnswer maybeIdleTimeout (es.foldl Activity.record (Activity.start start)).idle
        (.error socketTimedOut) inner := by
  intro st
  have hu : UpstreamAgrees maybeIdleTimeout st (es.foldl Activity.record (Activity.start start)) :=
    foldl_preserves_record (I := UpstreamAgrees maybeIdleTimeout) _ _
      (fun _ _ e hu => hu.step e) es _ _ (upstreamAgrees_relayUpstream maybeIdleTimeout start)
  exact hu.answer inner

/-- An upstream with timeout `2`, built at instant `0`: an answer at instant
`1` moves the deadline to instant `3`, so a pending read at instant `2` waits
and one at instant `3` fails. -/
example :
    let up := [IdleEvent.tick, .poll (.ready (.ok ())), .tick].foldl
      (stepPolls ReadTimeoutStream.pollRead) (0, relayUpstream (some 2) 0)
    (up.2.pollRead up.1 .pending).2 = .pending ∧
      (up.2.pollRead (up.1 + 1) .pending).2 = .ready (.error socketTimedOut) := by
  decide

/-! ## The streamed response body -/

/-- The body agrees with the record of a run: wrapped, with the timeout it
was built with and a sleep that agrees with the record, just when it has a
timeout. -/
def BodyAgrees (timeout : Option Nat) (st : Nat × ResponseBody) (h : Activity) : Prop :=
  match timeout with
  | some d => ∃ c, st.2 = .cancelOnWriteTimeout c ∧ c.duration = d ∧ Tracks d st.1 c.sleep h
  | none => st.2 = .plain

variable {sb : Nat × ResponseBody}

theorem bodyAgrees_responseBody (maybeRequestIdleTimeout : Option Nat) (hasContentLength : Bool)
    (start : Nat) :
    BodyAgrees (if hasContentLength then none else maybeRequestIdleTimeout)
      (start, responseBody maybeRequestIdleTimeout hasContentLength start) (Activity.start start) := by
  cases maybeRequestIdleTimeout with
  | none => cases hasContentLength <;> rfl
  | some d =>
      cases hasContentLength with
      | true => rfl
      | false => exact ⟨_, rfl, rfl, tracks_sleep d start⟩

theorem pollNext_cancelOnWriteTimeout (c : CancelOnWriteTimeout) (now : Nat) (inner : Poll (Option α)) :
    (ResponseBody.cancelOnWriteTimeout c).pollNext now inner =
      (.cancelOnWriteTimeout ⟨c.duration, (pollIdle c.duration c.sleep now none inner).1⟩,
        (pollIdle c.duration c.sleep now none inner).2) := rfl

/-- Every event keeps the agreement. -/
theorem BodyAgrees.step (hb : BodyAgrees timeout sb h) (e : IdleEvent (Option α)) :
    BodyAgrees timeout (stepPolls ResponseBody.pollNext sb e) (h.record e) := by
  obtain ⟨now, b⟩ := sb
  cases timeout with
  | none =>
      have hb : b = .plain := hb
      subst hb
      cases e <;> rfl
  | some d =>
      obtain ⟨c, hc, hdur, ht⟩ := hb
      have hc : b = .cancelOnWriteTimeout c := hc
      subst hc hdur
      cases e with
      | tick => exact ⟨c, rfl, rfl, ht.tick⟩
      | poll inner =>
          exact ⟨⟨c.duration, (pollIdle c.duration c.sleep now none inner).1⟩, rfl, rfl,
            ht.poll none inner⟩

theorem BodyAgrees.answer (hb : BodyAgrees timeout sb h) (inner : Poll (Option α)) :
    (sb.2.pollNext sb.1 inner).2 = idleAnswer timeout h.idle none inner := by
  cases timeout with
  | none =>
      have hb : sb.2 = .plain := hb
      rw [hb]
      cases inner <;> rfl
  | some d =>
      obtain ⟨c, hc, hdur, ht⟩ := hb
      subst hdur
      rw [hc, pollNext_cancelOnWriteTimeout]
      exact ht.answer none inner

/-- After any run, the body `handle_request` hands back gives the worker's
body's answer, except that a streamed response, with no `content-length`,
ends once the worker's body has been quiet for the request idle timeout,
when one is set. -/
theorem pollNext_responseBody (maybeRequestIdleTimeout : Option Nat) (hasContentLength : Bool)
    (start : Nat) (es : List (IdleEvent (Option α))) (inner : Poll (Option α)) :
    let sb := es.foldl (stepPolls ResponseBody.pollNext)
      (start, responseBody maybeRequestIdleTimeout hasContentLength start)
    (sb.2.pollNext sb.1 inner).2 =
      idleAnswer (if hasContentLength then none else maybeRequestIdleTimeout)
        (es.foldl Activity.record (Activity.start start)).idle none inner := by
  intro sb
  have hb : BodyAgrees (if hasContentLength then none else maybeRequestIdleTimeout) sb
      (es.foldl Activity.record (Activity.start start)) :=
    foldl_preserves_record (I := BodyAgrees (if hasContentLength then none else maybeRequestIdleTimeout))
      _ _ (fun _ _ e hb => hb.step e) es _ _
      (bodyAgrees_responseBody maybeRequestIdleTimeout hasContentLength start)
  exact hb.answer inner

end EdgeRuntime.Server
