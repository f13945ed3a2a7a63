import PorthCore.Ports.Driver

/-!
# The address of a shuttle

The constructor of `Driver` writes `get_device_addr()` to `data_ptr` once.  At
that moment no IOVA can have been set, since the shuttle has just been built,
so what is written is the address of the page.  `set_device_iova` changes what
`get_device_addr()` returns and nothing else: from then on register and
accessor differ unless the IOVA is the page's own address (`tracks_iff`).

The other parties are free to write every register but `data_ptr` and to move
the ring on.
-/

namespace PorthCore.Ports.ShuttleAddress

open PorthCore.Ports.RingBuffer
open PorthCore.Ports.SimDevice
open PorthCore.Ports.Driver

/-- `PorthShuttle`: the base of its page, the IOVA, and its ring. -/
structure PorthShuttle where
  base : UInt64
  deviceIova : UInt64
  ring : PorthRingBuffer

namespace PorthShuttle

/-- The constructor on a page that lies at `base`. -/
def make (base : UInt64) (ring : PorthRingBuffer) : PorthShuttle :=
  { base := base
    deviceIova := 0
    ring := ring }

/-- `set_device_iova`. -/
def setDeviceIova (shuttle : PorthShuttle) (iova : UInt64) : PorthShuttle :=
  { shuttle with deviceIova := iova }

/-- `get_device_addr`. -/
def getDeviceAddr (shuttle : PorthShuttle) : UInt64 :=
  if shuttle.deviceIova ≠ 0 then shuttle.deviceIova else shuttle.base

end PorthShuttle

/-- A live driver with the register file it was built on. -/
structure LiveDriver where
  regs : PorthDeviceLayout
  shuttle : PorthShuttle
  stats : Option PorthStats

/-- The public operations on a driver and its shuttle.  `others` is what the
device and the rest of the host do between two of them. -/
inductive DriverOp
  | transmit (desc : PorthDescriptor)
  | receive (outDesc : PorthDescriptor)
  | setStatsLink (stats : Option PorthStats)
  | setDeviceIova (iova : UInt64)
  | others (dev : PorthDeviceLayout) (ring : PorthRingBuffer)

namespace LiveDriver

/-- A driver right after its constructor: the address is committed before
anyone can reach the shuttle. -/
def make (dev : PorthDeviceLayout) (base : UInt64) (ring : PorthRingBuffer) : LiveDriver :=
  { regs := construct dev (PorthShuttle.make base ring).getDeviceAddr .built
    shuttle := .make base ring
    stats := none }

/-- One call on a live driver. -/
def step (size : UInt64) (s : LiveDriver) : DriverOp → LiveDriver
  | .transmit desc =>
      let r := Driver.transmit size s.shuttle.ring s.stats desc
      { s with
        shuttle := { s.shuttle with ring := r.2.1 }
        stats := r.2.2 }
  | .receive outDesc =>
      { s with
        shuttle := { s.shuttle with ring := (Driver.receive size s.shuttle.ring outDesc).2.2 } }
  | .setStatsLink stats => { s with stats := stats }
  | .setDeviceIova iova => { s with shuttle := s.shuttle.setDeviceIova iova }
  | .others dev ring =>
      -- Nobody else writes `data_ptr`.
      { s with
        regs := { dev with dataPtr := s.regs.dataPtr }
        shuttle := { s.shuttle with ring := ring } }

/-- The state after construction and after each operation. -/
def states (size : UInt64) : LiveDriver → List DriverOp → List LiveDriver
  | s, [] => [s]
  | s, op :: ops => s :: states size (s.step size op) ops

/-- The register holds the address of the shuttle. -/
def Tracks (s : LiveDriver) : Prop := s.regs.dataPtr = s.shuttle.getDeviceAddr

/-- The register holds the address of the page. -/
def Committed (base : UInt64) (s : LiveDriver) : Prop :=
  s.regs.dataPtr = base ∧ s.shuttle.base = base

variable {size base : UInt64} {s : LiveDriver}

private theorem make_committed (dev : PorthDeviceLayout) (base : UInt64) (ring : PorthRingBuffer) :
    Committed base (make dev base ring) := ⟨rfl, rfl⟩

/-- No operation writes `data_ptr` or moves the page. -/
theorem Committed.step (h : Committed base s) (op : DriverOp) :
    Committed base (s.step size op) := by
  cases op <;> exact h

/-- What the accessor returns is what the constructor committed, unless an
IOVA other than the page's address stands in between. -/
theorem tracks_iff_iova (h : Committed base s) :
    s.Tracks ↔ s.shuttle.deviceIova = 0 ∨ s.shuttle.deviceIova = base := by
  unfold Tracks PorthShuttle.getDeviceAddr
  rw [h.1, h.2]
  by_cases hzero : s.shuttle.deviceIova = 0
  · simp [hzero]
  · simp only [ne_eq, hzero, not_false_eq_true, if_true, false_or]
    exact eq_comm

/-- The IOVA after an operation. -/
theorem iova_step (size : UInt64) (s : LiveDriver) (op : DriverOp) :
    (∃ iova, op = .setDeviceIova iova ∧ (s.step size op).shuttle.deviceIova = iova) ∨
      (∀ iova, op ≠ .setDeviceIova iova) ∧
        (s.step size op).shuttle.deviceIova = s.shuttle.deviceIova := by
  cases op with
  | setDeviceIova iova => exact .inl ⟨iova, rfl, rfl⟩
  | transmit desc => exact .inr ⟨nofun, rfl⟩
  | receive outDesc => exact .inr ⟨nofun, rfl⟩
  | setStatsLink stats => exact .inr ⟨nofun, rfl⟩
  | others dev ring => exact .inr ⟨nofun, rfl⟩

/-- From a committed state on, every state tracks if and only if the first
does and every IOVA that is set is 0 or the page's address. -/
theorem states_track_iff (h : Committed base s) (ops : List DriverOp) :
    (∀ t ∈ states size s ops, t.Tracks) ↔
      s.Tracks ∧ ∀ iova, .setDeviceIova iova ∈ ops → iova = 0 ∨ iova = base := by
  induction ops generalizing s with
  | nil =>
      rw [states, List.forall_mem_singleton]
      simp
  | cons op ops ih =>
      rw [states, List.forall_mem_cons, ih (h.step op), tracks_iff_iova h,
        tracks_iff_iova (h.step op)]
      rcases iova_step size s op with ⟨iova, rfl, hiova⟩ | ⟨hother, hiova⟩
      · simp only [hiova, List.mem_cons, DriverOp.setDeviceIova.injEq, or_imp, forall_and,
          forall_eq]
      · simp only [hiova, List.mem_cons, (hother _).symm, false_or]
        constructor
        · rintro ⟨hnow, -, hlater⟩
          exact ⟨hnow, hlater⟩
        · rintro ⟨hnow, hlater⟩
          exact ⟨hnow, hnow, hlater⟩

/-- **When the register tracks the shuttle.**  After construction and after
every operation `data_ptr` equals `get_device_addr()` if and only if every
IOVA that is ever set is 0 or the address of the page. -/
theorem tracks_iff (size base : UInt64) (dev : PorthDeviceLayout) (ring : PorthRingBuffer)
    (ops : List DriverOp) :
    (∀ s ∈ states size (make dev base ring) ops, s.Tracks) ↔
      ∀ iova, .setDeviceIova iova ∈ ops → iova = 0 ∨ iova = base := by
  have hcommitted := make_committed dev base ring
  rw [states_track_iff hcommitted]
  have htracks : (make dev base ring).Tracks := (tracks_iff_iova hcommitted).mpr (.inl rfl)
  exact and_iff_right htracks

/-- A driver whose page is at 2 MiB and whose IOVA is set to 4 KiB: the
register still names the page. -/
theorem iova_not_committed :
    ¬∀ s ∈ states 1024 (make PorthSimDevice.fresh.dev 0x200000 (.fresh fun _ => default))
      [.setDeviceIova 0x1000], s.Tracks := by
  intro h
  have hlast := h _ (List.mem_cons_of_mem _ (List.mem_singleton_self _))
  revert hlast
  unfold Tracks
  decide

end LiveDriver

end PorthCore.Ports.ShuttleAddress
