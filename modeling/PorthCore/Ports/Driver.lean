import PorthCore.Ports.SimDevice

/-!
# `Driver<RingSize>`: data path and lifecycle

`transmit` and `receive` are given the ring they reach through `m_shuttle` and
the statistics block they reach through `m_stats`, which the caller may not
have linked.  Construction and destruction are given the register file; what
they do to the ring is whether it still exists afterwards, which
`Construction.ringLives` records.

The watchdog thread has no part in the data path; only the fact that starting
it can throw matters here.
-/

namespace PorthCore.Ports.Driver

open PorthCore.Ports.RingBuffer
open PorthCore.Ports.SimDevice

/-- The results of driver calls. -/
inductive PorthStatus
  | success
  | busy
  | empty
  | full
  | errorAffinity
  | errorPriority
  | errorHardwareTimeout
  deriving DecidableEq, Repr

/-- The counters of `PorthStats` that the data path writes. -/
structure PorthStats where
  totalPackets : UInt64
  totalBytes : UInt64
  droppedPackets : UInt64
  deriving DecidableEq, Repr

/-- The counters of a fresh hub. -/
def PorthStats.zero : PorthStats :=
  { totalPackets := 0, totalBytes := 0, droppedPackets := 0 }

/-- The accounting of a descriptor the ring accepted. -/
def PorthStats.accept (stats : PorthStats) (len : UInt32) : PorthStats :=
  { stats with
    totalPackets := stats.totalPackets + 1
    totalBytes := stats.totalBytes + len.toUInt64 }

/-- The accounting of a descriptor that was turned away. -/
def PorthStats.drop (stats : PorthStats) : PorthStats :=
  { stats with droppedPackets := stats.droppedPackets + 1 }

/-- `Driver::transmit`. -/
def transmit (size : UInt64) (ring : PorthRingBuffer) (stats : Option PorthStats)
    (desc : PorthDescriptor) : PorthStatus × PorthRingBuffer × Option PorthStats :=
  match push size ring desc with
  | (true, ring') => (.success, ring', stats.map (·.accept desc.len))
  | (false, ring') => (.full, ring', stats.map (·.drop))

/-- `Driver::receive`. -/
def receive (size : UInt64) (ring : PorthRingBuffer) (outDesc : PorthDescriptor) :
    PorthStatus × PorthDescriptor × PorthRingBuffer :=
  match pop size ring outDesc with
  | (true, desc, ring') => (.success, desc, ring')
  | (false, desc, ring') => (.empty, desc, ring')

/-! ## Lifecycle -/

/-- How far a call of the constructor gets: the shuttle allocation throws, the
creation of the watchdog thread throws, or neither. -/
inductive Construction
  | shuttleThrows
  | threadThrows
  | built
  deriving DecidableEq, Repr

/-- The constructor on the register file: the address is committed right after
the shuttle exists and before the thread does. -/
def construct (dev : PorthDeviceLayout) (shuttleAddr : UInt64) :
    Construction → PorthDeviceLayout
  | .shuttleThrows => dev
  | .threadThrows | .built => { dev with dataPtr := shuttleAddr }

/-- Whether the ring exists once the constructor is over: a throwing
constructor destroys the members it has built, without running `~Driver`. -/
def Construction.ringLives : Construction → Bool
  | .built => true
  | .shuttleThrows | .threadThrows => false

/-- `Driver::~Driver` on the register file. -/
def destruct (dev : PorthDeviceLayout) : PorthDeviceLayout := { dev with dataPtr := 0 }

/-! ## The specification of `transmit` and `receive` -/

variable {g : RingGeometry} {ring : PorthRingBuffer} {pos : Nat}
  {q : List PorthDescriptor}

private theorem transmit_full (h : Represents g ring pos q) (hfull : q.length + 1 = g.period)
    (stats : Option PorthStats) (desc : PorthDescriptor) :
    transmit g.size ring stats desc = (.full, ring, stats.map (·.drop)) := by
  rw [transmit, push_full h hfull]

private theorem transmit_room (h : Represents g ring pos q) (hroom : q.length + 1 < g.period)
    (stats : Option PorthStats) (desc : PorthDescriptor) :
    ∃ ring', transmit g.size ring stats desc = (.success, ring', stats.map (·.accept desc.len)) ∧
      Represents g ring' pos (q ++ [desc]) := by
  obtain ⟨hok, hnext⟩ := push_room h hroom desc
  refine ⟨(push g.size ring desc).2, ?_, hnext⟩
  rw [transmit, show push g.size ring desc = (true, (push g.size ring desc).2) from
    Prod.ext hok rfl]

/-- A transmission is accepted exactly when the ring is not full; otherwise
the ring is untouched. -/
theorem transmit_cases (h : Represents g ring pos q) (stats : Option PorthStats)
    (desc : PorthDescriptor) :
    (∃ ring', transmit g.size ring stats desc =
        (.success, ring', stats.map (·.accept desc.len)) ∧
        q.length + 1 < g.period ∧ Represents g ring' pos (q ++ [desc])) ∨
      (transmit g.size ring stats desc = (.full, ring, stats.map (·.drop)) ∧
        q.length + 1 = g.period) := by
  have hlt := h.room
  by_cases hfull : q.length + 1 = g.period
  · exact .inr ⟨transmit_full h hfull stats desc, hfull⟩
  · have hroom : q.length + 1 < g.period := by omega
    obtain ⟨ring', heq, hnext⟩ := transmit_room h hroom stats desc
    exact .inl ⟨ring', heq, hroom, hnext⟩

theorem receive_empty (h : Represents g ring pos []) (out : PorthDescriptor) :
    receive g.size ring out = (.empty, out, ring) := by
  rw [receive, pop_empty h]

theorem receive_cons {desc : PorthDescriptor} (h : Represents g ring pos (desc :: q))
    (out : PorthDescriptor) :
    ∃ ring', receive g.size ring out = (.success, desc, ring') ∧
      Represents g ring' (pos + 1) q := by
  obtain ⟨hok, hout, hnext⟩ := pop_cons h out
  refine ⟨(pop g.size ring out).2.2, ?_, hnext⟩
  rw [receive, show pop g.size ring out = (true, desc, (pop g.size ring out).2.2) from
    Prod.ext hok (Prod.ext hout rfl)]

end PorthCore.Ports.Driver
