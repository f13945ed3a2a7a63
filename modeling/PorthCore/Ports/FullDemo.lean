import PorthCore.Ports.Metric
import PorthCore.Ports.XdpPortal
import PorthCore.Verified.Transition

/-!
# `porth_full_demo`: the stress loop and the telemetry it leaves

The engine bridges, transmits, spins, records and, every 10000 cycles, looks at
the laser's temperature; when the ring is full it breaks off and parks.  Its
counters are additions to a block that other processes map, so the model takes
them one at a time: a call of `bridge_to_shuttle` or `transmit` leaves the
additions it is still to make in `pending` (`bridge_adds`, `transmit_adds`).

Everything else is the environment's: what the device and the kernel do to the
ring and to the portal, every write of `laser_temp`, and how far the cycle
counter has come.  That counter has 64 bits and never goes back.

`History` only remembers.  `Accounted` relates it to the counters and to the
recorder at every point of the loop.
-/

namespace PorthCore.Ports.FullDemo

open PorthCore.Verified.Transition
open PorthCore.Verified.Transition.System
open PorthCore.Ports.RingBuffer
open PorthCore.Ports.Driver
open PorthCore.Ports.XdpPortal
open PorthCore.Ports.Metric

variable {Rx Fill : Type}

/-! ## The counters, one addition at a time -/

/-- A `fetch_add` on the block. -/
inductive FetchAdd
  | packet
  | bytes (len : UInt32)
  | drop
  deriving DecidableEq, Repr

/-- What an addition does to the counters. -/
def FetchAdd.apply (stats : PorthStats) : FetchAdd → PorthStats
  | .packet => { stats with totalPackets := stats.totalPackets + 1 }
  | .bytes len => { stats with totalBytes := stats.totalBytes + len.toUInt64 }
  | .drop => { stats with droppedPackets := stats.droppedPackets + 1 }

/-- The additions one after the other. -/
def applyAll (stats : PorthStats) (adds : List FetchAdd) : PorthStats :=
  adds.foldl FetchAdd.apply stats

/-- The additions for a descriptor the ring has taken. -/
def taken (len : UInt32) : List FetchAdd := [.packet, .bytes len]

/-- The additions of a call of `bridge_to_shuttle`. -/
def bridgeAdds : BridgeBranch → List FetchAdd
  | .noPacket => []
  | .invalid | .refused => [.drop]
  | .forwarded desc => taken desc.len

/-- The additions of a call of `transmit`. -/
def transmitAdds (len : UInt32) : PorthStatus → List FetchAdd
  | .success => taken len
  | _ => [.drop]

/-- The branches of a call do not look at the block, and its additions, one by
one, are what the call does to the block at once. -/
theorem bridge_adds (xsk : Xsk Rx Fill) (size : UInt64) (portal : PorthXDPPortal Rx Fill)
    (ring : PorthRingBuffer) (stats : PorthStats) :
    let quiet := bridgeToShuttle xsk size portal ring none
    bridgeToShuttle xsk size portal ring (some stats) =
      { quiet with stats := some (applyAll stats (bridgeAdds quiet.branch)) } := by
  unfold bridgeToShuttle
  rcases xsk.peek portal.rxRing with ⟨_ | idx, rx⟩
  · rfl
  · dsimp only
    split
    · rfl
    · rcases push size ring _ with ⟨_ | _, ring'⟩
      · rfl
      · rfl

theorem transmit_adds (size : UInt64) (ring : PorthRingBuffer) (stats : PorthStats)
    (desc : PorthDescriptor) :
    let quiet := transmit size ring none desc
    transmit size ring (some stats) desc =
      (quiet.1, quiet.2.1, some (applyAll stats (transmitAdds desc.len quiet.1))) := by
  unfold transmit
  rcases push size ring desc with ⟨_ | _, ring'⟩
  · rfl
  · rfl

/-! ## The engine -/

/-- The block, less `last_latency_ns`, which nothing writes. -/
structure Telemetry where
  stats : PorthStats
  currentTempMc : UInt32
  maxTempMc : UInt32
  deriving DecidableEq, Repr

/-- A freshly constructed `PorthStats`. -/
def Telemetry.zero : Telemetry := { stats := .zero, currentTempMc := 0, maxTempMc := 0 }

/-- Control points of `run_telemetry_stress_test`, then of
`run_telemetry_parking`. -/
inductive Pc
  | head
  | readT1
  | transmit
  | readStart
  | spin
  | readT2
  | log
  | loadMax
  | storeMax
  | storeCurrent
  | progress
  | parkLoad
  | parkStore
  | done
  deriving DecidableEq, Repr

/-- A line of the progress report. -/
structure Progress where
  iteration : Nat
  packets : UInt64
  bytes : UInt64
  temp : UInt32
  deriving DecidableEq, Repr

/-- What has happened so far: descriptors the engine has transmitted, the
latencies it has recorded, lengths of the packets the portal has forwarded,
packets it has turned away, whether the ring was found full, the temperatures
the stress loop has published, and those the parking loop has. -/
structure History where
  transmitted : Nat
  latencies : List UInt64
  forwarded : List UInt32
  turnedAway : Nat
  saturated : Bool
  sampled : List UInt32
  parked : List UInt32
  deriving DecidableEq, Repr

/-- Nothing has happened. -/
def History.empty : History :=
  { transmitted := 0
    latencies := []
    forwarded := []
    turnedAway := 0
    saturated := false
    sampled := []
    parked := [] }

/-- The engine at its program counter with its locals, and all it shares: the
ring, the portal, the metric, the telemetry and the clock. -/
structure Demo (Rx Fill : Type) where
  pc : Pc
  i : Nat
  parkedFor : Nat
  t1 : UInt64
  startDelay : UInt64
  currentTemp : UInt32
  pending : List FetchAdd
  portal : PorthXDPPortal Rx Fill
  ring : PorthRingBuffer
  laserTemp : UInt32
  clock : UInt64
  telemetry : Telemetry
  metric : PorthMetric
  report : List Progress
  history : History

/-- `shuttle_size`. -/
def shuttleSize : UInt64 := 1024

/-- `ITERATIONS`. -/
def iterations : Nat := 50000

/-- `LOG_INTERVAL`. -/
def logInterval : Nat := 10000

/-- `PROPAGATION_DELAY_CYCLES`. -/
def propagationDelayCycles : UInt64 := 240

/-- `PARKING_DURATION_S`. -/
def parkingDurationS : Nat := 600

/-- The descriptor of every transmission. -/
def testDesc : PorthDescriptor := { addr := 0x1000, len := 64 }

/-- A step of the engine, or something that happens beside it. -/
inductive Act (Rx Fill : Type)
  | engine
  /-- The device, or anyone else with the ring. -/
  | device (ring : PorthRingBuffer)
  /-- The kernel's side of the portal. -/
  | kernel (portal : PorthXDPPortal Rx Fill)
  | setLaserTemp (temp : UInt32)
  | tick (clock : UInt64)

/-- What a call of `bridge_to_shuttle` adds to the history. -/
def History.bridged (h : History) : BridgeBranch → History
  | .noPacket => h
  | .invalid | .refused => { h with turnedAway := h.turnedAway + 1 }
  | .forwarded desc => { h with forwarded := h.forwarded ++ [desc.len] }

/-- What a transmission adds to it. -/
def History.sent (h : History) : PorthStatus → History
  | .success => { h with transmitted := h.transmitted + 1 }
  | _ => { h with saturated := true }

namespace Demo

variable (xsk : Xsk Rx Fill)

/-- The engine's next operation, with no addition outstanding. -/
def advance (s : Demo Rx Fill) : Option (Demo Rx Fill) :=
  match s.pc with
  | .head =>
      if s.i < iterations then
        let out := bridgeToShuttle xsk shuttleSize s.portal s.ring none
        some { s with
          pc := .readT1
          portal := out.portal
          ring := out.ring
          pending := bridgeAdds out.branch
          history := s.history.bridged out.branch }
      else some { s with pc := .parkLoad }
  | .readT1 => some { s with pc := .transmit, t1 := s.clock }
  | .transmit =>
      let out := Driver.transmit shuttleSize s.ring none testDesc
      some { s with
        pc := if out.1 = .success then .readStart else .parkLoad
        ring := out.2.1
        pending := transmitAdds testDesc.len out.1
        history := s.history.sent out.1 }
  | .readStart => some { s with pc := .spin, startDelay := s.clock }
  | .spin =>
      if s.clock - s.startDelay < propagationDelayCycles then some s
      else some { s with pc := .readT2 }
  | .readT2 =>
      (s.metric.record (s.clock - s.t1)).map fun metric =>
        { s with
          pc := .log
          metric := metric
          history := { s.history with latencies := s.history.latencies ++ [s.clock - s.t1] } }
  | .log =>
      if s.i % logInterval = 0 then some { s with pc := .loadMax, currentTemp := s.laserTemp }
      else some { s with pc := .head, i := s.i + 1 }
  | .loadMax =>
      if s.telemetry.maxTempMc < s.currentTemp then some { s with pc := .storeMax }
      else some { s with pc := .storeCurrent }
  | .storeMax =>
      some { s with
        pc := .storeCurrent
        telemetry := { s.telemetry with maxTempMc := s.currentTemp } }
  | .storeCurrent =>
      some { s with
        pc := .progress
        telemetry := { s.telemetry with currentTempMc := s.currentTemp }
        history := { s.history with sampled := s.history.sampled ++ [s.currentTemp] } }
  | .progress =>
      some { s with
        pc := .head
        i := s.i + 1
        report := s.report ++
          [{ iteration := s.i
             packets := s.telemetry.stats.totalPackets
             bytes := s.telemetry.stats.totalBytes
             temp := s.currentTemp }] }
  | .parkLoad =>
      if s.parkedFor < parkingDurationS then
        some { s with pc := .parkStore, currentTemp := s.laserTemp }
      else some { s with pc := .done }
  | .parkStore =>
      some { s with
        pc := .parkLoad
        parkedFor := s.parkedFor + 1
        telemetry := { s.telemetry with currentTempMc := s.currentTemp }
        history := { s.history with parked := s.history.parked ++ [s.currentTemp] } }
  | .done => none

/-- One step of the demo. -/
def step (s : Demo Rx Fill) : Act Rx Fill → Option (Demo Rx Fill)
  | .engine =>
      match s.pending with
      | [] => s.advance xsk
      | add :: adds =>
          some { s with
            telemetry := { s.telemetry with stats := add.apply s.telemetry.stats }
            pending := adds }
  | .device ring => some { s with ring := ring }
  | .kernel portal => some { s with portal := portal }
  | .setLaserTemp temp => some { s with laserTemp := temp }
  | .tick clock => if s.clock ≤ clock then some { s with clock := clock } else none

/-- The engine enters the loop with a new block and a new recorder. -/
structure Start (s : Demo Rx Fill) : Prop where
  pc : s.pc = .head
  i : s.i = 0
  parkedFor : s.parkedFor = 0
  pending : s.pending = []
  telemetry : s.telemetry = .zero
  metric : s.metric = .make iterations
  report : s.report = []
  history : s.history = .empty

/-- The engine beside a device and a kernel that do as they like, and a clock that
goes forward. -/
def system : System (Demo Rx Fill) (Act Rx Fill) := .ofStep Start (step xsk)

end Demo

/-! ## The counters follow the history -/

/-- The counters as numbers. -/
structure Totals where
  packets : Nat
  bytes : Nat
  drops : Nat

namespace Totals

/-- The counters as they stand, as numbers. -/
def ofStats (stats : PorthStats) : Totals :=
  { packets := stats.totalPackets.toNat
    bytes := stats.totalBytes.toNat
    drops := stats.droppedPackets.toNat }

/-- An addition without wrap. -/
def add (t : Totals) : FetchAdd → Totals
  | .packet => { t with packets := t.packets + 1 }
  | .bytes len => { t with bytes := t.bytes + len.toNat }
  | .drop => { t with drops := t.drops + 1 }

/-- The additions one after the other, without wrap. -/
def addAll (t : Totals) (adds : List FetchAdd) : Totals := adds.foldl add t

/-- No counter is smaller. -/
structure Le (t u : Totals) : Prop where
  packets : t.packets ≤ u.packets
  bytes : t.bytes ≤ u.bytes
  drops : t.drops ≤ u.drops

/-- The counters' 64 bits hold them. -/
structure Fits (t : Totals) : Prop where
  packets : t.packets < 2 ^ 64
  bytes : t.bytes < 2 ^ 64
  drops : t.drops < 2 ^ 64

variable {t u v : Totals}

theorem Le.refl (t : Totals) : Le t t where
  packets := Nat.le_refl _
  bytes := Nat.le_refl _
  drops := Nat.le_refl _

theorem Le.trans (h : Le t u) (h' : Le u v) : Le t v where
  packets := h.packets.trans h'.packets
  bytes := h.bytes.trans h'.bytes
  drops := h.drops.trans h'.drops

theorem Fits.mono (h : Le t u) (hfits : Fits u) : Fits t where
  packets := Nat.lt_of_le_of_lt h.packets hfits.packets
  bytes := Nat.lt_of_le_of_lt h.bytes hfits.bytes
  drops := Nat.lt_of_le_of_lt h.drops hfits.drops

theorem le_add (t : Totals) (a : FetchAdd) : Le t (t.add a) := by
  cases a with
  | packet => exact { Le.refl t with packets := Nat.le_succ _ }
  | bytes len => exact { Le.refl t with bytes := Nat.le_add_right _ _ }
  | drop => exact { Le.refl t with drops := Nat.le_succ _ }

private theorem le_addAll (t : Totals) (adds : List FetchAdd) : Le t (t.addAll adds) := by
  induction adds generalizing t with
  | nil => exact .refl t
  | cons a adds ih => exact (t.le_add a).trans (ih (t.add a))

/-- An addition that fits does not wrap. -/
theorem ofStats_apply {stats : PorthStats} {a : FetchAdd} (h : Fits ((ofStats stats).add a)) :
    ofStats (a.apply stats) = (ofStats stats).add a := by
  cases a with
  | packet =>
      have hsum : (stats.totalPackets + 1).toNat = stats.totalPackets.toNat + 1 :=
        (UInt64.toNat_add _ _).trans (Nat.mod_eq_of_lt h.packets)
      simp only [ofStats, FetchAdd.apply, add, hsum]
  | bytes len =>
      have hsum : (stats.totalBytes + len.toUInt64).toNat =
          stats.totalBytes.toNat + len.toUInt64.toNat :=
        (UInt64.toNat_add _ _).trans (Nat.mod_eq_of_lt h.bytes)
      simp only [ofStats, FetchAdd.apply, add, hsum, UInt32.toNat_toUInt64]
  | drop =>
      have hsum : (stats.droppedPackets + 1).toNat = stats.droppedPackets.toNat + 1 :=
        (UInt64.toNat_add _ _).trans (Nat.mod_eq_of_lt h.drops)
      simp only [ofStats, FetchAdd.apply, add, hsum]

end Totals

/-- What the counters are once no addition is outstanding. -/
def History.totals (h : History) : Totals :=
  { packets := h.transmitted + h.forwarded.length
    bytes := 64 * h.transmitted + (h.forwarded.map (·.toNat)).sum
    drops := h.turnedAway + h.saturated.toNat }

private theorem History.totals_bridged (h : History) (branch : BridgeBranch) :
    (h.bridged branch).totals = h.totals.addAll (bridgeAdds branch) := by
  cases branch with
  | noPacket => rfl
  | invalid | refused =>
      simp only [totals, bridged, Totals.addAll, bridgeAdds, Totals.add, List.foldl_cons,
        List.foldl_nil, Nat.add_right_comm h.turnedAway]
  | forwarded desc =>
      simp [totals, bridged, Totals.addAll, bridgeAdds, taken, Totals.add, ← Nat.add_assoc]

private theorem History.totals_sent (h : History) (hroom : h.saturated = false)
    (status : PorthStatus) :
    (h.sent status).totals = h.totals.addAll (transmitAdds testDesc.len status) := by
  cases status with
  | success =>
      simp [totals, sent, Totals.addAll, transmitAdds, taken, Totals.add, testDesc, Nat.mul_add,
        Nat.add_right_comm]
  | _ => simp [totals, sent, Totals.addAll, transmitAdds, Totals.add, hroom]

private theorem sum_lengths_le (lens : List UInt32) :
    (lens.map (·.toNat)).sum ≤ lens.length * 2 ^ 32 := by
  induction lens with
  | nil => exact Nat.le_refl 0
  | cons len lens ih =>
      have hlt := len.toNat_lt
      simp only [List.map_cons, List.sum_cons, List.length_cons]
      omega

/-- One packet and one descriptor a pass do not wrap the counters. -/
structure History.Small (h : History) : Prop where
  transmitted : h.transmitted ≤ iterations
  bridged : h.forwarded.length + h.turnedAway ≤ iterations

theorem History.Small.fits {h : History} (hsmall : h.Small) : h.totals.Fits := by
  have htransmitted := hsmall.transmitted
  have hbridged := hsmall.bridged
  have hsum := sum_lengths_le h.forwarded
  have hbool := h.saturated.toNat_le
  simp only [iterations] at htransmitted hbridged
  constructor
  all_goals
    simp only [History.totals]
    omega

/-! ## The loop -/

/-- How the history stands at each control point: in the loop the engine has
sent and recorded one descriptor for each pass, and it parks after the last
pass or in the one that finds the ring full. -/
def loopAt (h : History) (i : Nat) : Pc → Prop
  | .head =>
      h.saturated = false ∧ i ≤ iterations ∧ h.latencies.length = i ∧ h.transmitted = i
  | .readT1 | .transmit =>
      h.saturated = false ∧ i < iterations ∧ h.latencies.length = i ∧ h.transmitted = i
  | .readStart | .spin | .readT2 =>
      h.saturated = false ∧ i < iterations ∧ h.latencies.length = i ∧ h.transmitted = i + 1
  | .log | .loadMax | .storeMax | .storeCurrent | .progress =>
      h.saturated = false ∧ i < iterations ∧ h.latencies.length = i + 1 ∧ h.transmitted = i + 1
  | .parkLoad | .parkStore | .done =>
      h.latencies.length = i ∧ h.transmitted = i ∧
        (h.saturated = true ∧ i < iterations ∨ h.saturated = false ∧ i = iterations)

/-- The readings of the cycle counter taken so far in this pass. -/
def timedAt (t1 startDelay clock : UInt64) : Pc → Prop
  | .transmit | .readStart => t1 ≤ clock
  | .spin => t1 ≤ startDelay ∧ startDelay ≤ clock
  | .readT2 => t1 ≤ startDelay ∧ startDelay.toNat + 240 ≤ clock.toNat
  | _ => True

/-- The larger of two temperatures. -/
def raise (highest temp : UInt32) : UInt32 := if highest < temp then temp else highest

/-- The highest temperature the stress loop has published. -/
def History.highest (h : History) : UInt32 := h.sampled.foldl raise 0

/-- `max_temp_mc` against the temperatures published. -/
def heatedAt (h : History) (currentTemp maxTemp : UInt32) : Pc → Prop
  | .storeMax => maxTemp = h.highest ∧ maxTemp < currentTemp
  | .storeCurrent => maxTemp = raise h.highest currentTemp
  | _ => maxTemp = h.highest

/-- The passes that have called the portal. -/
def passesAt (i : Nat) : Pc → Nat
  | .head => i
  | .parkLoad | .parkStore | .done => iterations
  | _ => i + 1

/-- A line counts at least the engine's own transmissions. -/
structure Progress.Covers (line : Progress) : Prop where
  packets : line.iteration < line.packets.toNat
  bytes : 64 * (line.iteration + 1) ≤ line.bytes.toNat

/-- How the block, the recorder and the report stand to the history. -/
structure Accounted (s : Demo Rx Fill) : Prop where
  totals : (Totals.ofStats s.telemetry.stats).addAll s.pending = s.history.totals
  loop : loopAt s.history s.i s.pc
  bridged : s.history.forwarded.length + s.history.turnedAway ≤ passesAt s.i s.pc
  timed : timedAt s.t1 s.startDelay s.clock s.pc
  heated : heatedAt s.history s.currentTemp s.telemetry.maxTempMc s.pc
  published : s.telemetry.currentTempMc ≤ s.telemetry.maxTempMc ∨
    s.telemetry.currentTempMc ∈ s.history.parked
  metric : PorthMetric.Retains iterations s.history.latencies s.metric
  floor : ∀ latency ∈ s.history.latencies, propagationDelayCycles ≤ latency
  report : ∀ line ∈ s.report, line.Covers

section Step

variable {xsk : Xsk Rx Fill} {s t : Demo Rx Fill}

theorem transmit_status (size : UInt64) (ring : PorthRingBuffer) (desc : PorthDescriptor) :
    (transmit size ring none desc).1 = .success ∨ (transmit size ring none desc).1 = .full := by
  unfold transmit
  rcases push size ring desc with ⟨_ | _, ring'⟩
  · exact .inr rfl
  · exact .inl rfl

theorem History.latencies_bridged (h : History) (branch : BridgeBranch) :
    (h.bridged branch).latencies = h.latencies ∧ (h.bridged branch).transmitted = h.transmitted ∧
      (h.bridged branch).saturated = h.saturated ∧ (h.bridged branch).sampled = h.sampled ∧
      (h.bridged branch).parked = h.parked := by
  cases branch with
  | _ => exact ⟨rfl, rfl, rfl, rfl, rfl⟩

private theorem le_raise (highest temp : UInt32) : temp ≤ raise highest temp := by
  unfold raise
  split
  · exact UInt32.le_refl _
  · next hge => exact UInt32.not_lt.mp hge

private theorem History.highest_append (h : History) (temp : UInt32) :
    { h with sampled := h.sampled ++ [temp] }.highest = raise h.highest temp := by
  simp [highest]

/-- The spin is over when 240 cycles have passed. -/
theorem spun {start clock : UInt64} (hle : start ≤ clock)
    (hdone : ¬clock - start < propagationDelayCycles) : start.toNat + 240 ≤ clock.toNat := by
  have hsub := UInt64.toNat_sub_of_le clock start hle
  rw [UInt64.lt_iff_toNat_lt, hsub, show propagationDelayCycles.toNat = 240 from rfl] at hdone
  rw [UInt64.le_iff_toNat_le] at hle
  omega

/-- What is recorded includes the spin. -/
theorem recorded_floor {t1 start clock : UInt64} (hle : t1 ≤ start)
    (hspun : start.toNat + 240 ≤ clock.toNat) : propagationDelayCycles ≤ clock - t1 := by
  rw [UInt64.le_iff_toNat_le] at hle ⊢
  have hsub := UInt64.toNat_sub_of_le clock t1 (UInt64.le_iff_toNat_le.mpr (by omega))
  rw [hsub, show propagationDelayCycles.toNat = 240 from rfl]
  omega

/-- Time passes in the middle of a pass. -/
theorem timedAt_mono {t1 start clock clock' : UInt64} (hle : clock ≤ clock') {pc : Pc}
    (h : timedAt t1 start clock pc) : timedAt t1 start clock' pc := by
  cases pc with
  | transmit | readStart => exact UInt64.le_trans h hle
  | spin => exact ⟨h.1, UInt64.le_trans h.2 hle⟩
  | readT2 => exact ⟨h.1, h.2.trans (UInt64.le_iff_toNat_le.mp hle)⟩
  | _ => trivial

private theorem History.length_bridged (h : History) (branch : BridgeBranch) :
    (h.bridged branch).forwarded.length + (h.bridged branch).turnedAway ≤
      h.forwarded.length + h.turnedAway + 1 := by
  cases branch with
  | noPacket => exact Nat.le_succ _
  | invalid | refused => exact Nat.le_refl _
  | forwarded desc =>
      simp only [bridged, List.length_append, List.length_singleton]
      omega

/-- A recorded latency for each transmission but the one under way. -/
theorem Accounted.recorded (h : Accounted s) :
    s.history.latencies.length ≤ s.history.transmitted ∧
      s.history.transmitted ≤ s.history.latencies.length + 1 ∧
      s.history.transmitted ≤ iterations := by
  have hloop := h.loop
  cases hpc : s.pc with
  | _ =>
      simp only [hpc, loopAt] at hloop
      omega

private theorem Accounted.small (h : Accounted s) : s.history.Small where
  transmitted := h.recorded.2.2
  bridged := by
    have hloop := h.loop
    have hbridged := h.bridged
    cases hpc : s.pc with
    | _ =>
        simp only [hpc, loopAt, passesAt] at hloop hbridged
        omega

theorem Accounted.totals_idle (h : Accounted s) (hidle : s.pending = []) :
    Totals.ofStats s.telemetry.stats = s.history.totals := by
  have htotals := h.totals
  rwa [hidle] at htotals

theorem Accounted.ofStats_apply (h : Accounted s) {a : FetchAdd} {adds : List FetchAdd}
    (hpending : s.pending = a :: adds) :
    Totals.ofStats (a.apply s.telemetry.stats) = (Totals.ofStats s.telemetry.stats).add a := by
  have htotals := h.totals
  rw [hpending] at htotals
  refine Totals.ofStats_apply (Totals.Fits.mono ?_ h.small.fits)
  rw [← htotals]
  exact Totals.le_addAll _ adds

private theorem Accounted.totals_cons (h : Accounted s) {a : FetchAdd} {adds : List FetchAdd}
    (hpending : s.pending = a :: adds) :
    (Totals.ofStats (a.apply s.telemetry.stats)).addAll adds = s.history.totals := by
  have htotals := h.totals
  rw [hpending] at htotals
  rw [h.ofStats_apply hpending]
  exact htotals

/-- A line is printed with no addition outstanding. -/
theorem covers {stats : PorthStats} {h : History} {i : Nat} {temp : UInt32}
    (htotals : Totals.ofStats stats = h.totals) (htransmitted : h.transmitted = i + 1) :
    Progress.Covers
      { iteration := i
        packets := stats.totalPackets
        bytes := stats.totalBytes
        temp := temp } := by
  have hpackets := congrArg Totals.packets htotals
  have hbytes := congrArg Totals.bytes htotals
  simp only [Totals.ofStats, History.totals] at hpackets hbytes
  constructor
  · show i < stats.totalPackets.toNat
    omega
  · show 64 * (i + 1) ≤ stats.totalBytes.toNat
    omega

theorem Accounted.advance (h : Accounted s) (hidle : s.pending = [])
    (hst : s.advance xsk = some t) : Accounted t := by
  have htotals : Totals.ofStats s.telemetry.stats = s.history.totals := h.totals_idle hidle
  have hloop := h.loop
  have hbridged := h.bridged
  have htimed := h.timed
  have hheated := h.heated
  unfold Demo.advance at hst
  cases hpc : s.pc with
  | head =>
      simp only [hpc] at hst hloop hbridged hheated
      obtain ⟨hroom, hi, hlatencies, htransmitted⟩ := hloop
      split at hst
      · next hlt =>
          cases hst
          obtain ⟨hl, htr, hsat, hsam, hpar⟩ := s.history.latencies_bridged
            (bridgeToShuttle xsk shuttleSize s.portal s.ring none).branch
          exact
            { totals := by
                rw [History.totals_bridged, htotals]
              loop := by
                simp only [loopAt, hl, htr, hsat]
                exact ⟨hroom, hlt, hlatencies, htransmitted⟩
              bridged := (s.history.length_bridged _).trans (Nat.succ_le_succ hbridged)
              timed := trivial
              heated := by
                simpa only [heatedAt, History.highest, hsam] using hheated
              published := by
                simpa only [hpar] using h.published
              metric := by
                simpa only [hl] using h.metric
              floor := by
                simpa only [hl] using h.floor
              report := h.report }
      · next hge =>
          cases hst
          exact { h with
            loop := ⟨hlatencies, htransmitted, .inr ⟨hroom, Nat.le_antisymm hi (Nat.not_lt.mp hge)⟩⟩
            bridged := hbridged.trans hi
            timed := trivial
            heated := hheated }
  | readT1 =>
      simp only [hpc, Option.some.injEq] at hst hloop hbridged hheated
      subst hst
      exact { h with
        loop := hloop
        bridged := hbridged
        timed := UInt64.le_refl _
        heated := hheated }
  | transmit =>
      simp only [hpc, Option.some.injEq] at hst hloop hbridged hheated htimed
      subst hst
      obtain ⟨hroom, hi, hlatencies, htransmitted⟩ := hloop
      have hsent := s.history.totals_sent hroom
        (Driver.transmit shuttleSize s.ring none testDesc).1
      rcases transmit_status shuttleSize s.ring testDesc with hok | hfull
      · rw [hok] at hsent ⊢
        exact { h with
          totals := by
            rw [hsent, htotals]
          loop := ⟨hroom, hi, hlatencies, congrArg (· + 1) htransmitted⟩
          bridged := hbridged
          timed := htimed
          heated := hheated }
      · rw [hfull] at hsent ⊢
        exact { h with
          totals := by
            rw [hsent, htotals]
          loop := ⟨hlatencies, htransmitted, .inl ⟨rfl, hi⟩⟩
          bridged := hbridged.trans hi
          timed := trivial
          heated := hheated }
  | readStart =>
      simp only [hpc, Option.some.injEq] at hst hloop hbridged hheated htimed
      subst hst
      exact { h with
        loop := hloop
        bridged := hbridged
        timed := ⟨htimed, UInt64.le_refl _⟩
        heated := hheated }
  | spin =>
      simp only [hpc] at hst hloop hbridged hheated htimed
      split at hst
      · cases hst
        exact h
      · next hdone =>
          cases hst
          exact { h with
            loop := hloop
            bridged := hbridged
            timed := ⟨htimed.1, spun htimed.2 hdone⟩
            heated := hheated }
  | readT2 =>
      simp only [hpc, Option.map_eq_some_iff] at hst hloop hbridged hheated htimed
      obtain ⟨metric, hrecord, rfl⟩ := hst
      obtain ⟨hroom, hi, hlatencies, htransmitted⟩ := hloop
      obtain ⟨metric', hrecord', hretains⟩ := h.metric.record (s.clock - s.t1)
      cases hrecord.symm.trans hrecord'
      exact { h with
        loop := ⟨hroom, hi, by simp [hlatencies], htransmitted⟩
        bridged := hbridged
        timed := trivial
        heated := hheated
        metric := hretains
        floor := by
          intro latency hmem
          rcases List.mem_append.mp hmem with hold | hnew
          · exact h.floor latency hold
          · rw [List.mem_singleton.mp hnew]
            exact recorded_floor htimed.1 htimed.2 }
  | log =>
      simp only [hpc] at hst hloop hbridged hheated
      split at hst
      · cases hst
        exact { h with loop := hloop, bridged := hbridged, timed := trivial, heated := hheated }
      · cases hst
        obtain ⟨hroom, hi, hlatencies, htransmitted⟩ := hloop
        exact { h with
          loop := ⟨hroom, hi, hlatencies, htransmitted⟩
          bridged := hbridged
          timed := trivial
          heated := hheated }
  | loadMax =>
      simp only [hpc] at hst hloop hbridged hheated
      split at hst
      · next hlt =>
          cases hst
          exact { h with
            loop := hloop
            bridged := hbridged
            timed := trivial
            heated := ⟨hheated, hlt⟩ }
      · next hge =>
          cases hst
          exact { h with
            loop := hloop
            bridged := hbridged
            timed := trivial
            heated := hheated.trans (if_neg (hheated ▸ hge)).symm }
  | storeMax =>
      simp only [hpc, Option.some.injEq] at hst hloop hbridged hheated
      subst hst
      obtain ⟨hmax, hlt⟩ := hheated
      exact { h with
        loop := hloop
        bridged := hbridged
        timed := trivial
        heated := (if_pos (hmax ▸ hlt)).symm
        published := h.published.imp_left fun hle => UInt32.le_trans hle (UInt32.le_of_lt hlt) }
  | storeCurrent =>
      simp only [hpc, Option.some.injEq] at hst hloop hbridged hheated
      subst hst
      exact { h with
        loop := hloop
        bridged := hbridged
        timed := trivial
        heated := hheated.trans (s.history.highest_append s.currentTemp).symm
        published := .inl (hheated ▸ le_raise _ _) }
  | progress =>
      simp only [hpc, Option.some.injEq] at hst hloop hbridged hheated
      subst hst
      obtain ⟨hroom, hi, hlatencies, htransmitted⟩ := hloop
      exact { h with
        loop := ⟨hroom, hi, hlatencies, htransmitted⟩
        bridged := hbridged
        timed := trivial
        heated := hheated
        report := by
          intro line hmem
          rcases List.mem_append.mp hmem with hold | hnew
          · exact h.report line hold
          · rw [List.mem_singleton.mp hnew]
            exact covers htotals htransmitted }
  | parkLoad =>
      simp only [hpc] at hst hloop hbridged hheated
      split at hst
      · cases hst
        exact { h with loop := hloop, bridged := hbridged, timed := trivial, heated := hheated }
      · cases hst
        exact { h with loop := hloop, bridged := hbridged, timed := trivial, heated := hheated }
  | parkStore =>
      simp only [hpc, Option.some.injEq] at hst hloop hbridged hheated
      subst hst
      exact { h with
        loop := hloop
        bridged := hbridged
        timed := trivial
        heated := hheated
        published := .inr (by simp) }
  | done =>
      simp only [hpc, reduceCtorEq] at hst

theorem Accounted.step (h : Accounted s) {act : Act Rx Fill} (hst : s.step xsk act = some t) :
    Accounted t := by
  cases act with
  | engine =>
      simp only [Demo.step] at hst
      split at hst
      · next hidle => exact h.advance hidle hst
      · next add adds hpending =>
          cases hst
          exact { h with
            totals := h.totals_cons hpending }
  | device ring =>
      cases hst
      exact { h with }
  | kernel portal =>
      cases hst
      exact { h with }
  | setLaserTemp temp =>
      cases hst
      exact { h with }
  | tick clock =>
      simp only [Demo.step] at hst
      obtain ⟨hle, rfl⟩ := of_guard hst
      exact { h with timed := timedAt_mono hle h.timed }

theorem Accounted.start (h : Demo.Start s) : Accounted s where
  totals := by
    rw [h.telemetry, h.pending, h.history]
    rfl
  loop := by
    rw [h.pc, h.i, h.history]
    exact ⟨rfl, Nat.zero_le _, rfl, rfl⟩
  bridged := by
    rw [h.history]
    exact Nat.zero_le _
  timed := by
    rw [h.pc]
    trivial
  heated := by
    rw [h.pc, h.telemetry, h.history]
    rfl
  published := by
    rw [h.telemetry]
    exact .inl (UInt32.le_refl _)
  metric := by
    rw [h.metric, h.history]
    exact .make iterations
  floor := by
    rw [h.history]
    exact List.forall_mem_nil _
  report := by
    rw [h.report]
    exact List.forall_mem_nil _

theorem accounted (h : (Demo.system xsk).Reachable s) : Accounted s :=
  h.invariant (fun _ => Accounted.start) fun _ _ _ hs hst => hs.step hst

/-! ## What the block says -/

/-- **The counters, whatever the ring and the NIC do**: between two
calls of the engine, `total_packets` is the engine's own descriptors and the
packets the portal has forwarded, `total_bytes` is 64 for each of the former
and the lengths of the latter, and `dropped_packets` is the packets the portal
has turned away and one more if the ring was ever found full.  None of them
wraps. -/
theorem counters_accounted (h : (Demo.system xsk).Reachable s) (hidle : s.pending = []) :
    s.telemetry.stats.totalPackets.toNat =
        s.history.transmitted + s.history.forwarded.length ∧
      s.telemetry.stats.totalBytes.toNat =
        64 * s.history.transmitted + (s.history.forwarded.map (·.toNat)).sum ∧
      s.telemetry.stats.droppedPackets.toNat =
        s.history.turnedAway + s.history.saturated.toNat := by
  have htotals := (accounted h).totals_idle hidle
  exact ⟨congrArg Totals.packets htotals, congrArg Totals.bytes htotals,
    congrArg Totals.drops htotals⟩

/-- A packet of 100 bytes waits in a portal bound to [0, 2^21), and the ring is
empty. -/
def demoStart : Demo XskRingCons XskRingProd :=
  { pc := .head
    i := 0
    parkedFor := 0
    t1 := 0
    startDelay := 0
    currentTemp := 0
    pending := []
    portal :=
      { rxRing :=
          { entries := fun _ => { addr := 0x2000, len := 100 }
            cachedCons := 0
            producer := 1
            consumer := 0 }
        fillRing := { entries := fun _ => 0, cachedProd := 0, producer := 0, consumer := 0 }
        umemStart := 0
        umemEnd := 0x200000 }
    ring := .fresh fun _ => { addr := 0, len := 0 }
    laserTemp := 25000
    clock := 5000
    telemetry := .zero
    metric := .make iterations
    report := []
    history := .empty }

theorem demoStart_start : Demo.Start demoStart where
  pc := rfl
  i := rfl
  parkedFor := rfl
  pending := rfl
  telemetry := rfl
  metric := rfl
  report := rfl
  history := rfl

/-- The packet is forwarded and a descriptor is transmitted. -/
def forwardAndTransmit : List (Act XskRingCons XskRingProd) :=
  [.engine, .engine, .engine, .engine, .engine, .engine, .engine]

theorem counters_accounted_forwarded :
    ∃ s : Demo XskRingCons XskRingProd,
      (s.history.transmitted = 1 ∧ s.history.forwarded = [100]) ∧
        s.telemetry.stats.totalPackets.toNat =
            s.history.transmitted + s.history.forwarded.length ∧
          s.telemetry.stats.totalBytes.toNat =
            64 * s.history.transmitted + (s.history.forwarded.map (·.toNat)).sum ∧
          s.telemetry.stats.droppedPackets.toNat =
            s.history.turnedAway + s.history.saturated.toNat := by
  obtain ⟨s, hexec, hs⟩ := exec_of_any (Demo.step xskDefault) demoStart forwardAndTransmit
    (fun s => s.history.transmitted = 1 ∧ s.history.forwarded = [100] ∧ s.pending = [])
    (by decide)
  obtain ⟨htransmitted, hforwarded, hidle⟩ := of_decide_eq_true hs
  exact ⟨s, ⟨htransmitted, hforwarded⟩,
    counters_accounted (reachable_of_exec demoStart_start hexec) hidle⟩

/-- The parking loop, and what follows it. -/
def Pc.parking : Pc → Bool
  | .parkLoad | .parkStore | .done => true
  | _ => false

/-- `cycles_per_ns_newport`. -/
def cyclesPerNsNewport : ℚ := 12 / 5

/-- A sample of at least 240 cycles is at least 100 ns. -/
theorem hundred_le {samples : List UInt64} {m : PorthMetric} {p ns : ℚ}
    (hfloor : ∀ v ∈ samples, propagationDelayCycles ≤ v)
    (h : m.getPercentileNs samples p cyclesPerNsNewport = some ns) : 100 ≤ ns := by
  obtain ⟨v, hv, rfl⟩ := Option.map_eq_some_iff.mp h
  have hle := UInt64.le_iff_toNat_le.mp (hfloor v (List.mem_of_getElem? hv))
  have hcast : (240 : ℚ) ≤ v.toNat := by exact_mod_cast hle
  rw [cyclesPerNsNewport, le_div_iff₀ (by norm_num)]
  linarith

/-- A call of `transmit` that finds the ring full ends the loop at once. -/
theorem park_of_full (hpc : s.pc = .transmit) (hidle : s.pending = [])
    (hfull : (Driver.transmit shuttleSize s.ring none testDesc).1 ≠ .success)
    (hst : s.step xsk .engine = some t) : t.pc = .parkLoad ∧ t.history.saturated = true := by
  simp only [Demo.step, hidle, Demo.advance, hpc, Option.some.injEq] at hst
  subst hst
  have hstatus := (transmit_status shuttleSize s.ring testDesc).resolve_left hfull
  rw [hstatus]
  exact ⟨rfl, rfl⟩

/-- **The latencies, whatever the ring and the NIC do, under a clock that does
not run backwards**: the recorder has one latency for each descriptor
transmitted, short of the one under way, drops none, and holds none under the
240 cycles of the spin, so that no percentile of the final report is under
100 ns.  The engine parks either after 50000 transmissions, with the ring never
found full, or in the pass that finds it full: with that call of `transmit`
the loop is over, and no state of the loop has found the ring full.  A line of
the progress report never shows less than the passes it stands for. -/
theorem latencies_accounted (h : (Demo.system xsk).Reachable s) :
    (s.metric.count ≤ s.history.transmitted ∧ s.history.transmitted ≤ s.metric.count + 1) ∧
      (∀ latency ∈ s.metric.retained, propagationDelayCycles ≤ latency) ∧
      (∀ sorted p ns, s.metric.getSortedSamples = some sorted →
        s.metric.getPercentileNs sorted p cyclesPerNsNewport = some ns → 100 ≤ ns) ∧
      (s.pc.parking → s.metric.count = s.history.transmitted ∧
        (s.history.saturated = false ↔ s.history.transmitted = iterations)) ∧
      (s.history.saturated = true →
        s.pc.parking ∧ s.history.transmitted = s.i ∧ s.i < iterations) ∧
      (s.pc = .transmit → s.pending = [] →
        (Driver.transmit shuttleSize s.ring none testDesc).1 ≠ .success →
          ∀ t, s.step xsk .engine = some t → t.pc = .parkLoad ∧ t.history.saturated = true) ∧
      ∀ line ∈ s.report, line.Covers := by
  have hacc := accounted h
  have hrecorded := hacc.recorded
  have hloop := hacc.loop
  have hcount : s.metric.count = s.history.latencies.length := by
    rw [hacc.metric.count]
    omega
  have hfloor : ∀ latency ∈ s.metric.retained, propagationDelayCycles ≤ latency := by
    intro latency hmem
    rw [hacc.metric.front] at hmem
    exact hacc.floor latency (List.mem_of_mem_take hmem)
  refine ⟨by omega, hfloor, ?_, ?_, ?_, fun hpc hidle hfull t => park_of_full hpc hidle hfull,
    hacc.report⟩
  · intro sorted p ns hsorted
    rw [hacc.metric.bounded.getSortedSamples] at hsorted
    cases hsorted
    exact hundred_le fun v hv => hfloor v (List.mem_mergeSort.mp hv)
  · intro hparking
    cases hpc : s.pc with
    | parkLoad | parkStore | done =>
        simp only [hpc, loopAt] at hloop
        obtain ⟨hlength, htransmitted, ⟨hfull, hlt⟩ | ⟨hroom, heq⟩⟩ := hloop
        · refine ⟨by omega, ?_⟩
          rw [hfull]
          refine iff_of_false (by decide) ?_
          omega
        · exact ⟨by omega, iff_of_true hroom (htransmitted.trans heq)⟩
    | _ => simp [hpc, Pc.parking] at hparking
  · intro hfull
    cases hpc : s.pc with
    | parkLoad | parkStore | done =>
        simp only [hpc, loopAt, hfull] at hloop
        obtain ⟨-, htransmitted, ⟨-, hlt⟩ | ⟨hroom, -⟩⟩ := hloop
        · exact ⟨rfl, htransmitted, hlt⟩
        · cases hroom
    | _ => simp [hpc, loopAt, hfull] at hloop

/-- A pass up to its second reading of the clock, 1000 cycles after the first. -/
def firstPass : List (Act XskRingCons XskRingProd) :=
  forwardAndTransmit ++ [.engine, .tick 6000, .engine]

/-- A ring the device does not drain. -/
def fullRing : PorthRingBuffer :=
  { buffer := fun _ => { addr := 0, len := 0 }, head := 1023, tail := 0 }

/-- The first pass records 1000 cycles, the second finds the ring full. -/
theorem latencies_accounted_parked :
    ∃ s : Demo XskRingCons XskRingProd,
      (s.history.transmitted = 1 ∧ s.history.latencies = [1000] ∧ s.history.saturated = true) ∧
        (∀ latency ∈ s.metric.retained, propagationDelayCycles ≤ latency) ∧
        s.metric.count = s.history.transmitted ∧
        (s.history.saturated = false ↔ s.history.transmitted = iterations) ∧
        s.pc.parking ∧ s.history.transmitted = s.i ∧ s.i < iterations := by
  obtain ⟨s, hexec, hs⟩ := exec_of_any (Demo.step xskDefault) demoStart firstPass
    (fun s => (s.pc = .readT2 ∧ s.pending = [] ∧ s.i = 0) ∧ s.clock - s.t1 = 1000 ∧
      s.telemetry.maxTempMc < s.laserTemp ∧ s.history.transmitted = 1 ∧
      s.history.latencies = [] ∧
      (bridgeToShuttle xskDefault shuttleSize s.portal s.ring none).branch = .noPacket)
    (by decide)
  obtain ⟨⟨hpc, hidle, hi⟩, htime, hmax, htransmitted, hlatencies, hbranch⟩ :=
    of_decide_eq_true hs
  have hreach := reachable_of_exec demoStart_start hexec
  obtain ⟨metric, hrecord, -⟩ := (accounted hreach).metric.record (s.clock - s.t1)
  rw [htime] at hrecord
  -- Record, publish the temperature, report.
  obtain ⟨u, hu, ⟨hpc', hidle', hi'⟩, hportal, hring, htransmitted', hlatencies'⟩ :
      ∃ u, exec (Demo.step xskDefault) s (List.replicate 6 .engine) = some u ∧
        (u.pc = .head ∧ u.pending = [] ∧ u.i = 1) ∧ u.portal = s.portal ∧ u.ring = s.ring ∧
        u.history.transmitted = 1 ∧ u.history.latencies = [1000] := by
    simp [exec, List.replicate, Demo.step, Demo.advance, hpc, hidle, hi, hrecord, hmax, htime,
      htransmitted, hlatencies, logInterval]
  have hfull : Driver.transmit shuttleSize fullRing none testDesc = (.full, fullRing, none) := rfl
  obtain ⟨t, ht, hparked, htransmitted'', hlatencies''⟩ :
      ∃ t, exec (Demo.step xskDefault) u [.engine, .engine, .device fullRing, .engine] = some t ∧
        t.history.saturated = true ∧ t.history.transmitted = 1 ∧ t.history.latencies = [1000] := by
    simp [exec, Demo.step, Demo.advance, hpc', hidle', hi', hportal, hring, hbranch, hfull,
      iterations, bridgeAdds, History.bridged, History.sent, htransmitted', hlatencies']
  obtain ⟨-, hfloor, -, hcount, hfound, -, -⟩ :=
    latencies_accounted ((hreach.run (run_of_exec hu)).run (run_of_exec ht))
  obtain ⟨hparking, hpasses, hlt⟩ := hfound hparked
  obtain ⟨hall, hiff⟩ := hcount hparking
  exact ⟨t, ⟨htransmitted'', hlatencies'', hparked⟩, hfloor, hall, hiff, hparking, hpasses, hlt⟩

end Step

end PorthCore.Ports.FullDemo
