import Mathlib
import EdgeRuntime.Verified.Machine
import EdgeRuntime.Pool.Registry

/-!
# The CPU budget of a per-request supervisor

`strategy_per_request::supervise`
(crates/base/src/rt_worker/supervisor/strategy_per_request.rs) watches the
CPU time of its worker in two ways:

* the worker thread reports every slice it runs the isolate for: an
  `Enter` before it and a `Leave(accumulated, diff)` after it, `diff` the
  slice's CPU time in nanoseconds (`get_cpu_metrics_guard` in
  crates/base/src/deno_runtime.rs); on `Leave` the supervisor adds
  `diff / 1_000_000` to `cpu_usage_ms` and stops with `CPUTime` once that
  reaches `hard_limit_ms`;
* a `CPUTimer` on the worker thread's CPU clock
  (crates/cpu_timer/src/lib.rs) sends an alarm `hard_limit_ms` after its
  last reset, and an alarm received while the worker is inside a slice of a
  started request stops the supervisor with `CPUTime`.  For this policy
  `get_cpu_timer` gives the timer no interval, and the supervisor resets it
  at every request start, `Enter` and `Leave`.

Each `Leave` floors its own slice, so slices shorter than a millisecond add
nothing; and the timer, reset around every slice, only goes off within one
slice of at least `hard_limit_ms`.

The model is the supervisor's CPU branch as a machine whose events are the
messages it receives and the CPU time the worker thread spends; a failed
`assert!` is a stuck step.  The timer sends at most one alarm per `run`
event, which is exact for a timer without interval.

## Main results

* `exec_slices`: over slices each shorter than the limit, the supervisor
  keeps running while the sum of the per-slice floors stays below it, and
  `cpu_usage_ms` is that sum.
* `perRequest_cpu_budget_floors`: slices each shorter than a millisecond
  never stop the supervisor, however much CPU time they add up to.
-/

namespace EdgeRuntime.Supervisor

open EdgeRuntime.Verified.Machine EdgeRuntime.Pool

/-- `ShutdownReason`. -/
inductive ShutdownReason
  | wallClockTime
  | cpuTime
  | memory
  | earlyDrop
  | terminationRequested
  deriving DecidableEq, Repr

/-- `CPUTimerParam`. -/
structure CPUTimerParam where
  softLimitMs : Nat
  hardLimitMs : Nat
  deriving DecidableEq, Repr

/-- `CPUTimerParam::is_disabled`. -/
def CPUTimerParam.isDisabled (p : CPUTimerParam) : Bool :=
  p.softLimitMs == 0 && p.hardLimitMs == 0

/-- A `CPUTimer` on the thread's CPU clock: its expiry and interval in
milliseconds, the CPU time since its last reset in nanoseconds, and the CPU
time at which it next goes off (`none`: disarmed). -/
structure CPUTimer where
  initialExpiry : Nat
  interval : Nat
  elapsed : Nat
  deadline : Option Nat
  deriving DecidableEq, Repr

namespace CPUTimer

/-- `CPUTimer::reset`: `timer_settime` with the initial expiry, which a zero
expiry disarms. -/
def reset (t : CPUTimer) : CPUTimer :=
  { t with elapsed := 0,
           deadline := if t.initialExpiry = 0 then none else some (t.initialExpiry * 1_000_000) }

/-- `CPUTimer::start`. -/
def start (initialExpiry interval : Nat) : CPUTimer :=
  reset ⟨initialExpiry, interval, 0, none⟩

/-- The thread spends `ns` of CPU time; the flag says the timer went off and
sent an alarm.  It is then disarmed, or set an interval further. -/
def consume (t : CPUTimer) (ns : Nat) : CPUTimer × Bool :=
  match t.deadline with
  | some d =>
      if d ≤ t.elapsed + ns then
        ({ t with elapsed := t.elapsed + ns,
                  deadline := if t.interval = 0 then none else some (d + t.interval * 1_000_000) },
          true)
      else ({ t with elapsed := t.elapsed + ns }, false)
  | none => ({ t with elapsed := t.elapsed + ns }, false)

theorem consume_reset_of_lt {t : CPUTimer} {ns : Nat} (h : ns < t.initialExpiry * 1_000_000) :
    t.reset.consume ns = ({ t.reset with elapsed := ns }, false) := by
  have hpos : t.initialExpiry ≠ 0 := by
    intro h0
    rw [h0] at h
    omega
  simp only [consume, reset, hpos, if_false, Nat.zero_add, Nat.not_le.2 h]

end CPUTimer

/-- `CPUTimerParam::get_cpu_timer`. -/
def CPUTimerParam.getCpuTimer (p : CPUTimerParam) (policy : SupervisorPolicy) :
    Option CPUTimer :=
  if p.isDisabled then none
  else
    some (CPUTimer.start (if policy.isPerWorker then p.softLimitMs else p.hardLimitMs)
      (if policy.isPerRequest then 0 else p.hardLimitMs))

/-- The CPU side of a per-request supervisor. -/
structure CpuSupervisor where
  param : CPUTimerParam
  timer : Option CPUTimer
  isWorkerEntered : Bool
  cpuUsageMs : Int
  cpuUsageAccumulatedMs : Int
  reqStartAck : Bool
  /-- Alarms in flight on `cpu_alarms_rx`. -/
  alarms : Nat
  /-- What `supervise` returned, once it has. -/
  returned : Option (ShutdownReason × Int)

/-- What the supervisor's CPU branch sees happen. -/
inductive CpuEvent
  /-- A request's start signal arrives on `req_start_rx`. -/
  | reqStart
  /-- `CPUUsageMetrics::Enter`. -/
  | enter
  /-- `CPUUsageMetrics::Leave`. -/
  | leave (accumulated diff : Int)
  /-- An alarm arrives on `cpu_alarms_rx`. -/
  | alarm
  /-- The worker thread spends `ns` of CPU time. -/
  | run (ns : Nat)

namespace CpuSupervisor

/-- The state `supervise` enters its loop in. -/
def new (p : CPUTimerParam) (oneshot : Bool) : CpuSupervisor where
  param := p
  timer := p.getCpuTimer (.perRequest oneshot)
  isWorkerEntered := false
  cpuUsageMs := 0
  cpuUsageAccumulatedMs := 0
  reqStartAck := false
  alarms := 0
  returned := none

/-- `cpu_timer.as_ref().map(|it| it.reset())`. -/
def resetTimer (s : CpuSupervisor) : CpuSupervisor :=
  { s with timer := s.timer.map CPUTimer.reset }

/-- One event; `none` where it cannot happen: after `supervise` returned,
at a failed `assert!`, or an alarm with none in flight. -/
def step (s : CpuSupervisor) (e : CpuEvent) : Option CpuSupervisor :=
  if s.returned.isSome then none
  else
    match e with
    | .reqStart =>
        if s.reqStartAck then none
        else some { s.resetTimer with cpuUsageMs := 0, reqStartAck := true }
    | .enter =>
        if s.isWorkerEntered then none
        else
          let s' := { s with isWorkerEntered := true }
          some (if s.param.isDisabled then s' else s'.resetTimer)
    | .leave accumulated diff =>
        if !s.isWorkerEntered then none
        else
          let s' := { s with isWorkerEntered := false,
                             cpuUsageMs := s.cpuUsageMs + diff.tdiv 1_000_000,
                             cpuUsageAccumulatedMs := accumulated.tdiv 1_000_000 }
          if s.param.isDisabled then some s'
          else
            some { s'.resetTimer with
              returned := if s'.cpuUsageMs ≥ s.param.hardLimitMs
                then some (.cpuTime, s'.cpuUsageAccumulatedMs) else none }
    | .alarm =>
        if s.alarms = 0 then none
        else
          let s' := { s with alarms := s.alarms - 1 }
          some (if s.isWorkerEntered && s.reqStartAck
            then { s' with returned := some (.cpuTime, s.cpuUsageAccumulatedMs) } else s')
    | .run ns =>
        match s.timer with
        | none => some s
        | some t =>
            some { s with timer := some (t.consume ns).1,
                          alarms := if (t.consume ns).2 then s.alarms + 1 else s.alarms }

/-- The messages of slices of `ds` nanoseconds each, run by a thread that
had spent `accumulated` nanoseconds before them. -/
def slices : Int → List Nat → List CpuEvent
  | _, [] => []
  | accumulated, d :: ds =>
      .enter :: .run d :: .leave (accumulated + d) d :: slices (accumulated + d) ds

/-! ## Slices -/

/-- Between slices of a started request: no alarm in flight, the timer
armed for the hard limit. -/
structure Between (s : CpuSupervisor) : Prop where
  running : s.returned = none
  outside : s.isWorkerEntered = false
  acked : s.reqStartAck = true
  quiet : s.alarms = 0
  enabled : s.param.isDisabled = false
  timer : ∃ t, s.timer = some t ∧ t.initialExpiry = s.param.hardLimitMs

/-- One slice shorter than the limit: the timer, reset on `Enter`, does not
go off, and `Leave` adds the slice's own floor. -/
theorem exec_slice {s : CpuSupervisor} (hs : Between s) (accumulated : Int) {d : Nat}
    (hd : d < s.param.hardLimitMs * 1_000_000)
    (hbelow : s.cpuUsageMs + (d / 1_000_000 : Nat) < s.param.hardLimitMs) :
    ∃ s', exec step s [.enter, .run d, .leave (accumulated + d) d] = some s' ∧ Between s' ∧
      s'.param = s.param ∧ s'.cpuUsageMs = s.cpuUsageMs + (d / 1_000_000 : Nat) := by
  obtain ⟨t, ht, hexpiry⟩ := hs.timer
  have hconsume : t.reset.consume d = ({ t.reset with elapsed := d }, false) :=
    CPUTimer.consume_reset_of_lt (by rw [hexpiry]; exact hd)
  have hdiv : (d : Int).tdiv 1_000_000 = ((d / 1_000_000 : Nat) : Int) := rfl
  have hnot : ¬ s.cpuUsageMs + ((d / 1_000_000 : Nat) : Int) ≥ (s.param.hardLimitMs : Int) := by
    omega
  refine ⟨{ s with timer := some ({ t.reset with elapsed := d }).reset,
                   cpuUsageMs := s.cpuUsageMs + (d / 1_000_000 : Nat),
                   cpuUsageAccumulatedMs := (accumulated + d).tdiv 1_000_000 }, ?_, ?_, rfl, rfl⟩
  · simp only [exec_cons, exec_nil, step, hs.running, hs.outside, hs.enabled, ht, resetTimer,
      Option.map_some, hconsume, hdiv, hnot, Option.isSome_none, Bool.false_eq_true, if_false,
      Bool.not_true, Option.bind_some]
  · exact ⟨hs.running, hs.outside, hs.acked, hs.quiet, hs.enabled, ⟨_, rfl, hexpiry⟩⟩

/-- Slices each shorter than the limit: while the per-slice floors add up
to less than the limit, the supervisor keeps running, and `cpu_usage_ms` is
their sum. -/
theorem exec_slices (ds : List Nat) :
    ∀ (s : CpuSupervisor) (accumulated : Int), Between s →
      (∀ d ∈ ds, d < s.param.hardLimitMs * 1_000_000) →
      s.cpuUsageMs + ((ds.map (· / 1_000_000)).sum : Nat) < s.param.hardLimitMs →
      ∃ s', exec step s (slices accumulated ds) = some s' ∧ Between s' ∧
        s'.cpuUsageMs = s.cpuUsageMs + ((ds.map (· / 1_000_000)).sum : Nat) := by
  induction ds with
  | nil =>
      intro s _ hs _ _
      exact ⟨s, rfl, hs, by simp⟩
  | cons d ds ih =>
      intro s accumulated hs hshort hbelow
      simp only [List.map_cons, List.sum_cons, Int.natCast_add] at hbelow ⊢
      have hd : d < s.param.hardLimitMs * 1_000_000 := hshort d List.mem_cons_self
      obtain ⟨s₁, hexec₁, hs₁, hparam, husage⟩ :=
        exec_slice hs accumulated hd (by omega)
      obtain ⟨s₂, hexec₂, hs₂, husage₂⟩ := ih s₁ (accumulated + d) hs₁
        (fun d' hd' => hparam ▸ hshort d' (List.mem_cons_of_mem d hd'))
        (by rw [hparam, husage]; omega)
      refine ⟨s₂, ?_, hs₂, by rw [husage₂, husage]; omega⟩
      have hsplit : slices accumulated (d :: ds) =
          [.enter, .run d, .leave (accumulated + d) d] ++ slices (accumulated + d) ds := rfl
      rw [hsplit, exec_append, hexec₁, Option.bind_some, hexec₂]

/-- A started per-request supervisor with a hard limit is between slices. -/
theorem between_reqStart (p : CPUTimerParam) (oneshot : Bool) (hH : 0 < p.hardLimitMs) :
    ∃ s, step (new p oneshot) .reqStart = some s ∧ Between s ∧ s.param = p ∧ s.cpuUsageMs = 0 := by
  have hdisabled : p.isDisabled = false := by
    simp only [CPUTimerParam.isDisabled, Bool.and_eq_false_iff, beq_eq_false_iff_ne]
    exact .inr (Nat.pos_iff_ne_zero.1 hH)
  refine ⟨{ (new p oneshot).resetTimer with cpuUsageMs := 0, reqStartAck := true }, ?_, ?_, rfl,
    rfl⟩
  · simp [step, new, resetTimer]
  · refine ⟨rfl, rfl, rfl, rfl, hdisabled, (CPUTimer.start p.hardLimitMs 0).reset, ?_, rfl⟩
    simp only [new, resetTimer, CPUTimerParam.getCpuTimer, hdisabled, SupervisorPolicy.isPerWorker,
      SupervisorPolicy.isPerRequest, Bool.false_eq_true, if_false, if_true, Option.map_some]

theorem perRequest_cpu_budget_floors (p : CPUTimerParam) (oneshot : Bool)
    (hH : 0 < p.hardLimitMs) (ds : List Nat) (hshort : ∀ d ∈ ds, d < 1_000_000) :
    ∃ s, exec step (new p oneshot) (.reqStart :: slices 0 ds) = some s ∧
      s.returned = none ∧ s.cpuUsageMs = 0 ∧ s.alarms = 0 := by
  obtain ⟨s₀, hstart, hs₀, hparam, husage₀⟩ := between_reqStart p oneshot hH
  have hfloor : (ds.map (· / 1_000_000)).sum = 0 := by
    apply List.sum_eq_zero_iff_forall_eq_nat.2
    intro n hn
    obtain ⟨d, hd, rfl⟩ := List.mem_map.1 hn
    exact Nat.div_eq_of_lt (hshort d hd)
  obtain ⟨s, hexec, hs, husage⟩ := exec_slices ds s₀ 0 hs₀
    (fun d hd => by rw [hparam]; have := hshort d hd; omega)
    (by rw [hfloor, husage₀, hparam]; omega)
  refine ⟨s, ?_, hs.running, by rw [husage, hfloor, husage₀]; rfl, hs.quiet⟩
  rw [exec_cons, hstart, Option.bind_some, hexec]

/-- A hard limit of one millisecond and two slices of 0.6 ms: 1.2 ms of CPU
time, and the supervisor still runs with `cpu_usage_ms = 0`. -/
theorem perRequest_cpu_budget_floors_two :
    1 * 1_000_000 ≤ [600_000, 600_000].sum ∧
      ∃ s, exec CpuSupervisor.step (CpuSupervisor.new ⟨0, 1⟩ false)
          (.reqStart :: CpuSupervisor.slices 0 [600_000, 600_000]) = some s ∧
        s.returned = none ∧ s.cpuUsageMs = 0 ∧ s.alarms = 0 :=
  ⟨by decide, perRequest_cpu_budget_floors ⟨0, 1⟩ false (by decide) [600_000, 600_000]
    (by decide)⟩

end CpuSupervisor

end EdgeRuntime.Supervisor
