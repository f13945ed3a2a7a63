import PorthCore.Ports.OperatingEnvelope

/-!
# The two temperature monitors

`Driver::watchdog_loop` and the thread of `PorthSentinel::start` are one loop:
test the run flag, load `laser_temp`, and above the limit make the emergency
write and leave.  They differ in that write, and in that the watchdog lowers
its own flag before it leaves.  `MonitorLoop` is the loop with these two as
parameters; core pinning, messages and the sleep between polls have no effect
on the state and are left out.

`Monitored` runs a monitor beside the twin, one access of the monitor at a
time against whole turns of the physics loop.
-/

namespace PorthCore.Ports.Monitor

open PorthCore.Verified.Transition
open PorthCore.Ports.SimDevice
open PorthCore.Ports.OperatingEnvelope

/-- A thread that polls `laser_temp`. -/
structure MonitorLoop where
  /-- The highest temperature the monitor lets pass. -/
  limit : UInt32
  /-- The emergency write. -/
  trip : PorthDeviceLayout → PorthDeviceLayout
  lowersFlag : Bool

/-- `Driver::watchdog_loop`. -/
def watchdogLoop : MonitorLoop where
  limit := 45000
  trip dev := { dev with control := 0x0 }
  lowersFlag := true

/-- The thread of `PorthSentinel::start`. -/
def sentinelLoop : MonitorLoop where
  limit := 45000
  trip dev := { dev with safetyTrip := 0xDEADBEEF }
  lowersFlag := false

/-- The access a monitor makes next. -/
inductive MonitorPc
  | flag
  | load
  | trip
  | lower
  | left
  deriving DecidableEq, Repr

/-- A twin with a monitor, and what the monitor has done: whether it has made
its emergency write, how often it has loaded `laser_temp`, and how many turns
of the physics loop there were since its last load or write. -/
structure Monitored where
  twin : Twin
  pc : MonitorPc
  running : Bool
  stopped : Bool
  tripped : Bool
  loads : Nat
  since : Nat

/-- A step of the twin or its host, of the monitor, or the store with which
`~Driver` and `PorthSentinel::stop` end it. -/
inductive MonitoredOp
  | twin (op : TwinOp)
  | monitor
  | stop

namespace Monitored

/-- The registers. -/
def dev (s : Monitored) : PorthDeviceLayout := s.twin.sim.dev

/-- The registers are replaced. -/
def withDev (s : Monitored) (dev : PorthDeviceLayout) : Monitored :=
  { s with twin := { s.twin with sim := { s.twin.sim with dev := dev } } }

/-- The next access of the monitor; a thread that has left makes none. -/
def monitorStep (m : MonitorLoop) (s : Monitored) : Option Monitored :=
  match s.pc with
  | .flag => some { s with pc := if s.running then .load else .left }
  | .load =>
      some
        { s with
          pc := if m.limit < s.dev.laserTemp then .trip else .flag
          loads := s.loads + 1
          since := 0 }
  | .trip =>
      some
        { s.withDev (m.trip s.dev) with
          pc := if m.lowersFlag then .lower else .left
          tripped := true
          since := 0 }
  | .lower => some { s with pc := .left, running := false }
  | .left => none

/-- One step of the twin or of the monitor. -/
def step (m : MonitorLoop) (s : Monitored) (op : MonitoredOp) (t : Monitored) : Prop :=
  match op with
  | .twin op =>
      ∃ u, Twin.step s.twin op u ∧
        t = { s with twin := u, since := if op.isIterate then s.since + 1 else s.since }
  | .monitor => s.monitorStep m = some t
  | .stop => t = { s with running := false, stopped := true }

/-- A monitor as it is started: about to test its flag. -/
structure Started (s : Monitored) : Prop where
  pc : s.pc = .flag
  running : s.running = true
  stopped : s.stopped = false
  tripped : s.tripped = false
  loads : s.loads = 0
  since : s.since = 0

/-- A monitor started on a twin. -/
def starting (u : Twin) : Monitored where
  twin := u
  pc := .flag
  running := true
  stopped := false
  tripped := false
  loads := 0
  since := 0

theorem starting_started (u : Twin) : Started (starting u) := ⟨rfl, rfl, rfl, rfl, rfl, rfl⟩

/-- A started monitor on a twin from which `start` holds. -/
def system (m : MonitorLoop) (start : Twin → Prop) : System Monitored MonitoredOp where
  init := fun s => start s.twin ∧ Started s
  step := step m

variable {m : MonitorLoop} {s t : Monitored}

theorem monitorStep_flag (hpc : s.pc = .flag) (hrun : s.running = true) :
    s.monitorStep m = some { s with pc := .load } := by
  simp [monitorStep, hpc, hrun]

theorem monitorStep_hot (hpc : s.pc = .load) (hhot : m.limit < s.dev.laserTemp) :
    s.monitorStep m = some { s with pc := .trip, loads := s.loads + 1, since := 0 } := by
  simp [monitorStep, hpc, hhot]

theorem monitorStep_cool (hpc : s.pc = .load) (hcool : ¬m.limit < s.dev.laserTemp) :
    s.monitorStep m = some { s with pc := .flag, loads := s.loads + 1, since := 0 } := by
  simp [monitorStep, hpc, hcool]

/-- What each access of the monitor does. -/
theorem monitorStep_cases (h : s.monitorStep m = some t) :
    (s.pc = .flag ∧ t = { s with pc := if s.running then .load else .left }) ∨
      (s.pc = .load ∧ m.limit < s.dev.laserTemp ∧
        t = { s with pc := .trip, loads := s.loads + 1, since := 0 }) ∨
      (s.pc = .load ∧ ¬m.limit < s.dev.laserTemp ∧
        t = { s with pc := .flag, loads := s.loads + 1, since := 0 }) ∨
      (s.pc = .trip ∧
        t = { s.withDev (m.trip s.dev) with
          pc := if m.lowersFlag then .lower else .left, tripped := true, since := 0 }) ∨
      (s.pc = .lower ∧ t = { s with pc := .left, running := false }) := by
  unfold monitorStep at h
  cases hpc : s.pc with
  | flag =>
      simp only [hpc, Option.some.injEq] at h
      exact .inl ⟨rfl, h.symm⟩
  | load =>
      simp only [hpc, Option.some.injEq] at h
      by_cases hhot : m.limit < s.dev.laserTemp
      · rw [if_pos hhot] at h
        exact .inr (.inl ⟨rfl, hhot, h.symm⟩)
      · rw [if_neg hhot] at h
        exact .inr (.inr (.inl ⟨rfl, hhot, h.symm⟩))
  | trip =>
      simp only [hpc, Option.some.injEq] at h
      exact .inr (.inr (.inr (.inl ⟨rfl, h.symm⟩)))
  | lower =>
      simp only [hpc, Option.some.injEq] at h
      exact .inr (.inr (.inr (.inr ⟨rfl, h.symm⟩)))
  | left =>
      simp only [hpc] at h
      cases h

/-- A run of the twin alone is a run beside an idle monitor, under any
condition its steps meet. -/
theorem run_twin {start : Twin → Prop} {C : Twin → TwinOp → Prop}
    {D : Monitored → MonitoredOp → Prop} {u v : Twin} {ops : List TwinOp}
    (h : (Twin.system.restrict C).Run u ops v) (hD : ∀ s, ∀ op ∈ ops, D s (.twin op))
    (s : Monitored) (hs : s.twin = u) :
    ∃ n, ((system m start).restrict D).Run s (ops.map .twin)
      { s with twin := v, since := n } := by
  induction h generalizing s with
  | nil u =>
      subst hs
      exact ⟨s.since, .nil s⟩
  | @cons u w v op ops hstep _ ih =>
      subst hs
      obtain ⟨hhead, htail⟩ :
          (∀ s, D s (.twin op)) ∧ ∀ s, ∀ op ∈ ops, D s (.twin op) :=
        ⟨fun s => hD s op List.mem_cons_self, fun s o ho => hD s o (List.mem_cons_of_mem _ ho)⟩
      obtain ⟨n, hrun⟩ := ih htail
        { s with twin := w, since := if op.isIterate then s.since + 1 else s.since } rfl
      exact ⟨n, .cons ⟨hhead s, w, hstep.2, rfl⟩ hrun⟩

end Monitored

end PorthCore.Ports.Monitor
