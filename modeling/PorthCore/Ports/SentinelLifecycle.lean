import PorthCore.Ports.Monitor

/-!
# The life cycle of the sentinel

A `PorthSentinel` has three pieces of state: the flag `m_running`, whether
`m_thread` is joinable, and how far its thread has come.  A trip ends the
thread and leaves the other two as they are; `stop` lowers the flag, waits for
the thread and makes `m_thread` unjoinable.  `start` looks at none of the
three: it assigns a new thread, and where the old one has not been joined the
assignment calls `std::terminate`.

The owner's calls come in the order of a list, the steps of the thread fall
anywhere between them, and the temperature it loads is arbitrary.
`sound_iff_alternates` says for which lists no interleaving goes wrong.
-/

namespace PorthCore.Ports.SentinelLifecycle

open PorthCore.Verified.Transition
open PorthCore.Verified.Transition.System
open PorthCore.Ports.Monitor

/-- Where the owner is: between two calls, or inside `stop` at the join. -/
inductive OwnerPc
  | ready
  | joining
  deriving DecidableEq, Repr

/-- The access the thread of `start` makes next. -/
inductive SentinelPc
  | flag
  | load
  | trip
  | left
  deriving DecidableEq, Repr

/-- `m_running`; `m_thread` with the access its thread makes next, or `none`
where it is not joinable; the owner; whether `std::terminate` was called; and
whether a thread is due: a `start` has returned, and since then there was no
`stop` and no emergency write. -/
structure PorthSentinel where
  running : Bool
  thread : Option SentinelPc
  owner : OwnerPc
  terminated : Bool
  due : Bool
  deriving DecidableEq, Repr

/-- The calls of the owner. -/
inductive Call
  | start
  | stop
  deriving DecidableEq, Repr

/-- A call, a step of the thread with what `laser_temp` holds, or the return
of the join. -/
inductive SentinelOp
  | call (c : Call)
  | thread (laserTemp : UInt32)
  | joined
  deriving DecidableEq, Repr

/-- A step of the thread. -/
def threadStep (running : Bool) (laserTemp : UInt32) : SentinelPc → SentinelPc
  | .flag => if running then .load else .left
  | .load => if sentinelLoop.limit < laserTemp then .trip else .flag
  | .trip | .left => .left

namespace PorthSentinel

/-- A sentinel as it is constructed. -/
def fresh : PorthSentinel :=
  { running := false
    thread := none
    owner := .ready
    terminated := false
    due := false }

/-- `start`. -/
def start (s : PorthSentinel) : PorthSentinel :=
  match s.thread with
  | some _ => { s with running := true, terminated := true }
  | none => { s with running := true, thread := some .flag, due := true }

/-- `stop`, up to the join. -/
def stop (s : PorthSentinel) : PorthSentinel :=
  { s with
    running := false
    owner := if s.thread.isSome then .joining else .ready
    due := false }

/-- What a call does. -/
def call (s : PorthSentinel) : Call → PorthSentinel
  | .start => s.start
  | .stop => s.stop

/-- The thread takes a step from `pc`; the emergency write ends its duty. -/
def moved (s : PorthSentinel) (laserTemp : UInt32) (pc : SentinelPc) : PorthSentinel :=
  { s with
    thread := some (threadStep s.running laserTemp pc)
    due := if pc = .trip then false else s.due }

/-- One step; `none` where it cannot be taken.  The owner calls between calls,
the join returns when the thread has left, and nothing happens any more after
`std::terminate`. -/
def step (s : PorthSentinel) : SentinelOp → Option PorthSentinel
  | .call c => if s.terminated = false ∧ s.owner = .ready then some (s.call c) else none
  | .joined =>
      if s.terminated = false ∧ s.owner = .joining ∧ s.thread = some .left then
        some { s with thread := none, owner := .ready }
      else none
  | .thread laserTemp =>
      match s.thread with
      | some pc => if s.terminated = false ∧ pc ≠ .left then some (s.moved laserTemp pc) else none
      | none => none

/-- Calls of `start` and `stop` beside the monitor thread. -/
def system : System PorthSentinel SentinelOp := ofStep (· = fresh) step

/-- The thread is alive, and its flag is up. -/
def Polling (s : PorthSentinel) : Prop :=
  s.running = true ∧ ∃ pc, s.thread = some pc ∧ pc ≠ .left

/-- `std::terminate` was not called, and a thread that is due is polling. -/
structure Sound (s : PorthSentinel) : Prop where
  alive : s.terminated = false
  polls : s.due = true → s.Polling

/-- The calls among the steps of a run. -/
def calls (ops : List SentinelOp) : List Call :=
  ops.filterMap fun op =>
    match op with
    | .call c => some c
    | _ => none

/-- Between two starts there is a stop; `started` says whether the last call
before was a start. -/
def Alternates : Bool → List Call → Prop
  | _, [] => True
  | started, .start :: cs => started = false ∧ Alternates true cs
  | _, .stop :: cs => Alternates false cs

variable {s t : PorthSentinel} {op : SentinelOp}

/-! ## The thread is the monitor's loop -/

/-- The control points of the sentinel among those of a monitor. -/
def monitorPc : SentinelPc → MonitorPc
  | .flag => .flag
  | .load => .load
  | .trip => .trip
  | .left => .left

/-- The thread moves as a monitor with the sentinel's parameters does beside
the twin. -/
theorem threadStep_monitor {m m' : Monitored} {pc : SentinelPc} (hpc : m.pc = monitorPc pc)
    (h : m.monitorStep sentinelLoop = some m') :
    m'.pc = monitorPc (threadStep m.running m.dev.laserTemp pc) ∧ m'.running = m.running := by
  unfold Monitored.monitorStep at h
  rw [hpc] at h
  cases pc with
  | flag =>
      cases h
      refine ⟨?_, rfl⟩
      show (if m.running = true then MonitorPc.load else .left) = _
      unfold threadStep
      split <;> rfl
  | load =>
      cases h
      refine ⟨?_, rfl⟩
      show (if sentinelLoop.limit < m.dev.laserTemp then MonitorPc.trip else .flag) = _
      unfold threadStep
      split <;> rfl
  | trip =>
      cases h
      exact ⟨rfl, rfl⟩
  | left => cases h

/-! ## What a step can do -/

private theorem step_call {c : Call} (h : s.step (.call c) = some t) :
    s.terminated = false ∧ s.owner = .ready ∧ t = s.call c := by
  obtain ⟨⟨halive, howner⟩, hnext⟩ := of_guard h
  exact ⟨halive, howner, hnext⟩

private theorem step_thread {laserTemp : UInt32} (h : s.step (.thread laserTemp) = some t) :
    s.terminated = false ∧ ∃ pc, s.thread = some pc ∧ pc ≠ .left ∧ t = s.moved laserTemp pc := by
  simp only [step] at h
  cases hthread : s.thread with
  | none =>
      rw [hthread] at h
      cases h
  | some pc =>
      rw [hthread] at h
      obtain ⟨⟨halive, hleft⟩, hnext⟩ := of_guard h
      exact ⟨halive, pc, rfl, hleft, hnext⟩

private theorem step_joined (h : s.step .joined = some t) :
    s.terminated = false ∧ s.owner = .joining ∧ s.thread = some .left ∧
      t = { s with thread := none, owner := .ready } := by
  obtain ⟨⟨halive, howner, hthread⟩, hnext⟩ := of_guard h
  exact ⟨halive, howner, hthread, hnext⟩

/-- The flag after a step: only calls move it. -/
def flagAfter (running : Bool) : SentinelOp → Bool
  | .call .start => true
  | .call .stop => false
  | .thread _ | .joined => running

/-! ## Runs that alternate -/

/-- As long as no call starts a started sentinel, the flag says where the
sentinel stands: raised, the thread is not joined, and polling unless it has
made its emergency write; lowered, nothing is due, and between calls the thread
is joined. -/
structure Inv (s : PorthSentinel) : Prop where
  alive : s.terminated = false
  raised : s.running = true →
    s.owner = .ready ∧ ∃ pc, s.thread = some pc ∧ (s.due = true → pc ≠ .left)
  lowered : s.running = false → s.due = false ∧ (s.owner = .ready → s.thread = none)

theorem Inv.fresh : Inv fresh where
  alive := rfl
  raised := nofun
  lowered := fun _ => ⟨rfl, fun _ => rfl⟩

private theorem Inv.sound (h : Inv s) : Sound s where
  alive := h.alive
  polls := by
    intro hdue
    cases hrunning : s.running with
    | false => exact absurd hdue (by rw [(h.lowered hrunning).1]; decide)
    | true =>
        obtain ⟨-, pc, hthread, hleft⟩ := h.raised hrunning
        exact ⟨hrunning, pc, hthread, hleft hdue⟩

/-- A start of a stopped sentinel finds `m_thread` unjoinable. -/
theorem Inv.start (h : Inv s) (howner : s.owner = .ready) (hrunning : s.running = false) :
    Inv s.start ∧ s.start.running = true := by
  have hthread := (h.lowered hrunning).2 howner
  unfold PorthSentinel.start
  rw [hthread]
  exact
    ⟨{ alive := h.alive
       raised := fun _ => ⟨howner, .flag, rfl, fun _ => by decide⟩
       lowered := nofun }, rfl⟩

theorem Inv.stop (h : Inv s) :
    Inv s.stop ∧ s.stop.running = false := by
  refine ⟨{ alive := h.alive, raised := nofun, lowered := fun _ => ⟨rfl, ?_⟩ }, rfl⟩
  intro hready
  change (if s.thread.isSome then OwnerPc.joining else .ready) = .ready at hready
  show s.thread = none
  cases hthread : s.thread with
  | none => rfl
  | some pc =>
      rw [hthread] at hready
      cases hready

theorem Inv.moved (h : Inv s) (laserTemp : UInt32) {pc : SentinelPc}
    (hthread : s.thread = some pc) (hleft : pc ≠ .left) :
    Inv (s.moved laserTemp pc) ∧ (s.moved laserTemp pc).running = s.running := by
  refine ⟨{ alive := h.alive, raised := ?_, lowered := ?_ }, rfl⟩
  · intro hrunning
    obtain ⟨howner, -⟩ := h.raised hrunning
    refine ⟨howner, _, rfl, fun hdue => ?_⟩
    change s.running = true at hrunning
    rw [hrunning]
    cases pc with
    | flag =>
        show SentinelPc.load ≠ .left
        decide
    | load =>
        show (if sentinelLoop.limit < laserTemp then SentinelPc.trip else .flag) ≠ .left
        split <;> exact SentinelPc.noConfusion
    | trip => cases hdue
    | left => exact absurd rfl hleft
  · intro hrunning
    obtain ⟨hdue, hjoined⟩ := h.lowered hrunning
    refine ⟨?_, fun howner => ?_⟩
    · unfold PorthSentinel.moved
      dsimp only
      split
      · rfl
      · exact hdue
    · rw [hjoined howner] at hthread
      cases hthread

/-- A step keeps the invariant, unless it starts a started sentinel. -/
theorem Inv.step (h : Inv s) (hstep : s.step op = some t)
    (hop : op = .call .start → s.running = false) :
    Inv t ∧ t.running = flagAfter s.running op := by
  cases op with
  | call c =>
      obtain ⟨-, howner, rfl⟩ := step_call hstep
      cases c with
      | start => exact h.start howner (hop rfl)
      | stop => exact h.stop
  | thread laserTemp =>
      obtain ⟨-, pc, hthread, hleft, rfl⟩ := step_thread hstep
      exact h.moved laserTemp hthread hleft
  | joined =>
      obtain ⟨halive, howner, hthread, rfl⟩ := step_joined hstep
      refine ⟨{ alive := halive, raised := ?_, lowered := ?_ }, rfl⟩
      · intro hrunning
        rw [(h.raised hrunning).1] at howner
        cases howner
      · intro hrunning
        exact ⟨(h.lowered hrunning).1, fun _ => rfl⟩

/-- What a run that makes the first calls of an alternating list leaves. -/
theorem Inv.run {ops : List SentinelOp} {cs : List Call} (h : Inv s) (hrun : system.Run s ops t)
    (hcalls : calls ops <+: cs) (hcs : Alternates s.running cs) : Inv t := by
  induction hrun generalizing cs with
  | nil s => exact h
  | @cons s u t op ops hstep _ ih =>
      cases op with
      | call c =>
          obtain ⟨cs', rfl, htail⟩ : ∃ cs', cs = c :: cs' ∧ calls ops <+: cs' := by
            obtain ⟨rest, hrest⟩ := hcalls
            exact ⟨calls ops ++ rest, hrest.symm, List.prefix_append _ _⟩
          cases c with
          | start =>
              obtain ⟨hu, hrunning⟩ := h.step hstep fun _ => hcs.1
              exact ih hu htail (hrunning ▸ hcs.2)
          | stop =>
              obtain ⟨hu, hrunning⟩ := h.step hstep nofun
              exact ih hu htail (hrunning ▸ hcs)
      | thread laserTemp =>
          obtain ⟨hu, hrunning⟩ := h.step hstep nofun
          exact ih hu hcalls (hrunning ▸ hcs)
      | joined =>
          obtain ⟨hu, hrunning⟩ := h.step hstep nofun
          exact ih hu hcalls (hrunning ▸ hcs)

/-! ## Runs that do not -/

/-- A started sentinel whose thread has yet to test its flag. -/
def justStarted : PorthSentinel := fresh.start

/-- A sentinel that was stopped and whose thread was joined is as good as
new. -/
theorem stop_run : system.Run justStarted [.call .stop, .thread 0, .joined] fresh :=
  .cons rfl (.cons rfl (.cons rfl (.nil _)))

/-- The calls of a list that does not alternate can be made up to a start of a
started sentinel. -/
theorem exists_terminated {cs : List Call} :
    (¬Alternates false cs → ∃ ops t, system.Run fresh ops t ∧ calls ops <+: cs ∧
        t.terminated = true) ∧
      (¬Alternates true cs → ∃ ops t, system.Run justStarted ops t ∧ calls ops <+: cs ∧
        t.terminated = true) := by
  induction cs with
  | nil => exact ⟨fun h => absurd trivial h, fun h => absurd trivial h⟩
  | cons c cs ih =>
      obtain ⟨hfresh, hstarted⟩ := ih
      cases c with
      | start =>
          constructor
          · intro h
            obtain ⟨ops, t, hrun, hcalls, ht⟩ := hstarted fun hcs => h ⟨rfl, hcs⟩
            exact ⟨.call .start :: ops, t, .cons rfl hrun, (List.prefix_cons_inj _).mpr hcalls, ht⟩
          · intro _
            refine ⟨[.call .start], justStarted.start, .cons rfl (.nil _), ?_, rfl⟩
            exact List.prefix_append [.start] cs
      | stop =>
          constructor
          · intro h
            obtain ⟨ops, t, hrun, hcalls, ht⟩ := hfresh h
            exact ⟨.call .stop :: ops, t, .cons rfl hrun, (List.prefix_cons_inj _).mpr hcalls, ht⟩
          · intro h
            obtain ⟨ops, t, hrun, hcalls, ht⟩ := hfresh h
            exact ⟨_, t, stop_run.append hrun, (List.prefix_cons_inj _).mpr hcalls, ht⟩

/-- **The life cycle of the sentinel.**  For the calls of an owner in this
order, no interleaving with the thread calls `std::terminate` or leaves a due
thread not polling if and only if between any two starts there is a stop. -/
theorem sound_iff_alternates (cs : List Call) :
    (∀ ops s, system.Run fresh ops s → calls ops <+: cs → Sound s) ↔ Alternates false cs := by
  constructor
  · intro h
    by_contra hnot
    obtain ⟨ops, t, hrun, hcalls, ht⟩ := exists_terminated.1 hnot
    have halive := (h ops t hrun hcalls).alive
    rw [ht] at halive
    cases halive
  · intro hcs ops s hrun hcalls
    exact (Inv.fresh.run hrun hcalls hcs).sound

/-- The sentinel is started, trips at 46 degrees, and is started again. -/
theorem restart_after_trip_terminates :
    ¬∀ ops s, system.Run fresh ops s → calls ops <+: [.start, .start] → Sound s := by
  intro h
  have hrun : system.Run fresh
      [.call .start, .thread 46000, .thread 46000, .thread 46000, .call .start]
      { fresh with running := true, thread := some .left, terminated := true } :=
    .cons rfl (.cons rfl (.cons rfl (.cons rfl (.cons rfl (.nil _)))))
  exact absurd (h _ _ hrun (List.prefix_refl _)).alive (by decide)

end PorthSentinel

end PorthCore.Ports.SentinelLifecycle
