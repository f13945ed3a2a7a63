import PorthCore.Ports.FullDemo
import PorthCore.Ports.XskRings

/-!
# `porth_full_demo` with nothing in its fill ring

`main` binds the portal to the driver's shuttle, opens it and starts the loop.
Neither call puts a frame into the fill ring, and the loop's
`bridge_to_shuttle` only puts back what it has received.  `FullDemo` leaves the
portal to the environment; here the kernel keeps to its side of the two rings:
it takes frames from the fill ring and posts packets in frames it has taken.

Then it never has one.  Every call of `bridge_to_shuttle` returns at its first
branch, and the block counts the engine's own descriptors only.
-/

namespace PorthCore.Ports.UnprimedDemo

open PorthCore.Verified.Transition
open PorthCore.Verified.Transition.System
open PorthCore.Ports.RingBuffer
open PorthCore.Ports.XdpPortal
open PorthCore.Ports.XskRings
open PorthCore.Ports.FullDemo

variable {Rx Fill : Type}

/-- The demo, and the frames the kernel has taken and not used. -/
structure Opened (Rx Fill : Type) where
  demo : Demo Rx Fill
  held : List UInt64

/-- A step of the demo, or what the kernel does with the frames it holds. -/
inductive OpenedAct
  | engine
  | device (ring : PorthRingBuffer)
  | setLaserTemp (temp : UInt32)
  | tick (clock : UInt64)
  /-- The kernel uses the frame at `addr` for the packet `desc`. -/
  | post (addr : UInt64) (desc : XdpDesc)
  | take

namespace Opened

section Machine

variable (xsk : Xsk Rx Fill) (kernel : Kernel Rx Fill)
  (rxHolds : Rx → Nat → List XdpDesc → Prop) (fillHolds : Fill → List UInt64 → Prop)

/-- An act of the demo or of its device. -/
def act (s : Opened Rx Fill) (a : Act Rx Fill) : Option (Opened Rx Fill) :=
  (s.demo.step xsk a).map fun demo => { s with demo := demo }

/-- The kernel posts a packet in a frame it holds. -/
def afterPost (s : Opened Rx Fill) (addr : UInt64) (desc : XdpDesc) : Option (Opened Rx Fill) :=
  if addr ∈ s.held then
    (kernel.post s.demo.portal.rxRing desc).map fun rx =>
      { demo := { s.demo with portal := { s.demo.portal with rxRing := rx } }
        held := s.held.erase addr }
  else none

/-- The kernel takes a frame out of the fill ring. -/
def afterTake (s : Opened Rx Fill) : Option (Opened Rx Fill) :=
  (kernel.take s.demo.portal.fillRing).map fun taken =>
    { demo := { s.demo with portal := { s.demo.portal with fillRing := taken.2 } }
      held := s.held ++ [taken.1] }

/-- One step of the demo or of the kernel. -/
def step (s : Opened Rx Fill) : OpenedAct → Option (Opened Rx Fill)
  | .engine => s.act xsk .engine
  | .device ring => s.act xsk (.device ring)
  | .setLaserTemp temp => s.act xsk (.setLaserTemp temp)
  | .tick clock => s.act xsk (.tick clock)
  | .post addr desc => s.afterPost kernel addr desc
  | .take => s.afterTake kernel

/-- The loop is entered with the rings as libxdp has created them. -/
structure Start (s : Opened Rx Fill) : Prop where
  demo : Demo.Start s.demo
  rx : rxHolds s.demo.portal.rxRing 0 []
  fill : fillHolds s.demo.portal.fillRing []
  held : s.held = []

/-- The demo with its portal as `open_portal` leaves it. -/
def system : System (Opened Rx Fill) OpenedAct :=
  .ofStep (Start rxHolds fillHolds) (step xsk kernel)

/-- No frame anywhere between the portal and the kernel, and none seen. -/
structure Starved (s : Opened Rx Fill) : Prop where
  accounted : Accounted s.demo
  rx : rxHolds s.demo.portal.rxRing 0 []
  fill : fillHolds s.demo.portal.fillRing []
  held : s.held = []
  forwarded : s.demo.history.forwarded = []
  turnedAway : s.demo.history.turnedAway = 0

end Machine

variable {xsk : Xsk Rx Fill} {kernel : Kernel Rx Fill}
  {rxHolds : Rx → Nat → List XdpDesc → Prop} {fillHolds : Fill → List UInt64 → Prop}
  {s t : Opened Rx Fill}

private theorem Start.starved (h : Start rxHolds fillHolds s) : Starved rxHolds fillHolds s where
  accounted := .start h.demo
  rx := h.rx
  fill := h.fill
  held := h.held
  forwarded := by rw [h.demo.history]; rfl
  turnedAway := by rw [h.demo.history]; rfl

theorem demo_of_act {a : Act Rx Fill} (hst : s.act xsk a = some t) :
    ∃ d, s.demo.step xsk a = some d ∧ t = { s with demo := d } := by
  obtain ⟨d, hd, rfl⟩ := Option.map_eq_some_iff.mp hst
  exact ⟨d, hd, rfl⟩

/-- Away from the loop's head the engine leaves the portal alone. -/
theorem advance_portal {d d' : Demo Rx Fill} (hpc : d.pc ≠ .head)
    (hst : d.advance xsk = some d') :
    d'.portal = d.portal ∧ d'.history.forwarded = d.history.forwarded ∧
      d'.history.turnedAway = d.history.turnedAway := by
  unfold Demo.advance at hst
  cases hcase : d.pc with
  | head => exact absurd hcase hpc
  | transmit =>
      simp only [hcase, Option.some.injEq] at hst
      subst hst
      rcases transmit_status shuttleSize d.ring testDesc with hok | hfull
      · simp only [hok, History.sent, and_self]
      · simp only [hfull, History.sent, and_self]
  | spin | log | loadMax | parkLoad =>
      simp only [hcase] at hst
      split at hst
      all_goals
        cases hst
        exact ⟨rfl, rfl, rfl⟩
  | readT2 =>
      simp only [hcase, Option.map_eq_some_iff] at hst
      obtain ⟨metric, -, rfl⟩ := hst
      exact ⟨rfl, rfl, rfl⟩
  | readT1 | readStart | storeMax | storeCurrent | progress | parkStore =>
      simp only [hcase, Option.some.injEq] at hst
      subst hst
      exact ⟨rfl, rfl, rfl⟩
  | done => simp only [hcase, reduceCtorEq] at hst

namespace Starved

/-- A call on an empty rx ring returns at its first branch. -/
theorem head (hc : XskContract xsk kernel rxHolds fillHolds)
    (h : Starved rxHolds fillHolds s) {d : Demo Rx Fill} (hpc : s.demo.pc = .head)
    (hst : s.demo.advance xsk = some d) (hacc : Accounted d) :
    Starved rxHolds fillHolds { s with demo := d } := by
  obtain ⟨rx, hpeek, hrx⟩ := hc.peek_nil h.rx
  have hout : bridgeToShuttle xsk shuttleSize s.demo.portal s.demo.ring none = _ :=
    bridge_noPacket shuttleSize hpeek
  unfold Demo.advance at hst
  simp only [hpc, hout] at hst
  split at hst
  · cases hst
    exact { h with accounted := hacc, rx := hrx }
  · cases hst
    exact { h with accounted := hacc }

theorem engine (hc : XskContract xsk kernel rxHolds fillHolds)
    (h : Starved rxHolds fillHolds s) {d : Demo Rx Fill}
    (hst : s.demo.step xsk .engine = some d) :
    Starved rxHolds fillHolds { s with demo := d } := by
  have hacc := h.accounted.step hst
  simp only [Demo.step] at hst
  split at hst
  · by_cases hpc : s.demo.pc = .head
    · exact h.head hc hpc hst hacc
    · obtain ⟨hportal, hforwarded, hturned⟩ := advance_portal hpc hst
      exact
        { accounted := hacc
          rx := hportal ▸ h.rx
          fill := hportal ▸ h.fill
          held := h.held
          forwarded := hforwarded.trans h.forwarded
          turnedAway := hturned.trans h.turnedAway }
  · cases hst
    exact { h with accounted := hacc }

theorem step (hc : XskContract xsk kernel rxHolds fillHolds)
    (h : Starved rxHolds fillHolds s) {a : OpenedAct} (hst : s.step xsk kernel a = some t) :
    Starved rxHolds fillHolds t := by
  cases a with
  | engine =>
      obtain ⟨d, hd, rfl⟩ := demo_of_act hst
      exact h.engine hc hd
  | device ring =>
      obtain ⟨d, hd, rfl⟩ := demo_of_act hst
      have hacc := h.accounted.step hd
      cases hd
      exact { h with accounted := hacc }
  | setLaserTemp temp =>
      obtain ⟨d, hd, rfl⟩ := demo_of_act hst
      have hacc := h.accounted.step hd
      cases hd
      exact { h with accounted := hacc }
  | tick clock =>
      obtain ⟨d, hd, rfl⟩ := demo_of_act hst
      have hacc := h.accounted.step hd
      simp only [Demo.step] at hd
      obtain ⟨-, rfl⟩ := of_guard hd
      exact { h with accounted := hacc }
  | post addr desc =>
      -- The kernel holds no frame to post in.
      simp only [Opened.step, afterPost, h.held, List.not_mem_nil, if_false, reduceCtorEq] at hst
  | take =>
      -- There is none in the fill ring either.
      obtain ⟨taken, htake, -⟩ := Option.map_eq_some_iff.mp hst
      obtain ⟨rest, hcons, -⟩ := hc.take h.fill htake
      cases hcons

end Starved

/-- **The demo's portal never sees a packet.**  Whatever arrives on the
interface and whatever the device, the laser and the clock do, no call of
`bridge_to_shuttle` finds anything: between two calls of the engine
`total_packets` is the number of the engine's own descriptors, `total_bytes` 64
for each, and `dropped_packets` is 1 if the engine has parked on a full ring
and 0 otherwise. -/
theorem demo_counts_itself (hc : XskContract xsk kernel rxHolds fillHolds)
    (h : (system xsk kernel rxHolds fillHolds).Reachable s) :
    s.demo.history.forwarded = [] ∧ s.demo.history.turnedAway = 0 ∧ s.held = [] ∧
      (s.demo.pending = [] →
        s.demo.telemetry.stats.totalPackets.toNat = s.demo.history.transmitted ∧
        s.demo.telemetry.stats.totalBytes.toNat = 64 * s.demo.history.transmitted ∧
        s.demo.telemetry.stats.droppedPackets.toNat = s.demo.history.saturated.toNat) := by
  have hs : Starved rxHolds fillHolds s :=
    h.invariant (fun _ => Start.starved) fun _ _ _ hs hst => hs.step hc hst
  refine ⟨hs.forwarded, hs.turnedAway, hs.held, fun hidle => ?_⟩
  have htotals := hs.accounted.totals_idle hidle
  refine ⟨?_, ?_, ?_⟩
  · have hpackets := congrArg Totals.packets htotals
    simpa only [Totals.ofStats, History.totals, hs.forwarded, List.length_nil, Nat.add_zero]
      using hpackets
  · have hbytes := congrArg Totals.bytes htotals
    simpa only [Totals.ofStats, History.totals, hs.forwarded, List.map_nil, List.sum_nil,
      Nat.add_zero] using hbytes
  · have hdrops := congrArg Totals.drops htotals
    simpa only [Totals.ofStats, History.totals, hs.turnedAway, Nat.zero_add] using hdrops

/-! ## One pass -/

/-- The demo with empty rings. -/
def openedStart : Opened XskRingCons XskRingProd where
  demo :=
    { demoStart with
      portal := { demoStart.portal with rxRing := rxOf { addr := 0, len := 0 } 0 } }
  held := []

private theorem openedStart_start : Start RxHolds FillHolds openedStart where
  demo := { demoStart_start with }
  rx := rxHolds_rxOf _ (Nat.zero_le _)
  fill := fillHolds_fillEmpty
  held := rfl

/-- The first pass up to the spin. -/
def firstPass : List OpenedAct := [.engine, .engine, .engine, .engine, .engine, .engine]

theorem demo_counts_itself_one_pass :
    ∃ s : Opened XskRingCons XskRingProd, s.demo.history.transmitted = 1 ∧
      s.demo.history.forwarded = [] ∧
      s.demo.telemetry.stats.totalPackets.toNat = s.demo.history.transmitted := by
  obtain ⟨s, hexec, hs⟩ := exec_of_any (step xskDefault kernelDefault) openedStart firstPass
    (fun s => s.demo.history.transmitted = 1 ∧ s.demo.pending = []) (by decide)
  obtain ⟨htransmitted, hidle⟩ := of_decide_eq_true hs
  obtain ⟨hforwarded, -, -, hcounters⟩ := demo_counts_itself xskDefault_contract
    (reachable_of_exec openedStart_start hexec)
  exact ⟨s, htransmitted, hforwarded, (hcounters hidle).1⟩

end Opened

end PorthCore.Ports.UnprimedDemo
