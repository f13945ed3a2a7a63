import PorthCore.Ports.FullDemo

/-!
# `porth_stat`: frames of a block that moves

A dashboard loads five fields of the block one after the other and shows them
as one frame, while the engine goes on between two loads.  Any number of them
run next to the demo (`Watched.system`).

A frame is no snapshot.  What it can be relied on for comes from the order of
the accesses: the stress loop raises `max_temp_mc` before it stores
`current_temp_mc`, and a frame loads them the other way round.  The parking
loop stores the current temperature alone.
-/

namespace PorthCore.Ports.Dashboard

open PorthCore.Verified.Transition
open PorthCore.Verified.Transition.System
open PorthCore.Ports.RingBuffer
open PorthCore.Ports.Driver
open PorthCore.Ports.XdpPortal
open PorthCore.Ports.FullDemo

variable {Rx Fill : Type}

/-! ## The block from one step to the next -/

section Growth

variable {xsk : Xsk Rx Fill} {s t : Demo Rx Fill}

/-- No counter and no maximum goes down, and what has been parked stays so. -/
structure Grows (s t : Demo Rx Fill) : Prop where
  totals : Totals.Le (.ofStats s.telemetry.stats) (.ofStats t.telemetry.stats)
  highest : s.telemetry.maxTempMc ≤ t.telemetry.maxTempMc
  parked : s.history.parked ⊆ t.history.parked

theorem Grows.refl (s : Demo Rx Fill) : Grows s s where
  totals := .refl _
  highest := UInt32.le_refl _
  parked := List.Subset.refl _

private theorem grows_advance (h : Accounted s) (hst : s.advance xsk = some t) : Grows s t := by
  have hheated := h.heated
  have hrefl := Grows.refl s
  unfold Demo.advance at hst
  cases hpc : s.pc with
  | head =>
      simp only [hpc] at hst
      split at hst
      · cases hst
        obtain ⟨-, -, -, -, hparked⟩ := s.history.latencies_bridged
          (bridgeToShuttle xsk shuttleSize s.portal s.ring none).branch
        exact { hrefl with parked := hparked ▸ hrefl.parked }
      · cases hst
        exact { hrefl with }
  | transmit =>
      simp only [hpc, Option.some.injEq] at hst
      subst hst
      rcases transmit_status shuttleSize s.ring testDesc with hok | hfull
      · rw [hok]
        exact { hrefl with }
      · rw [hfull]
        exact { hrefl with }
  | readT2 =>
      simp only [hpc, Option.map_eq_some_iff] at hst
      obtain ⟨metric, -, rfl⟩ := hst
      exact { hrefl with }
  | storeMax =>
      simp only [hpc, Option.some.injEq] at hst hheated
      subst hst
      exact { hrefl with highest := UInt32.le_of_lt hheated.2 }
  | parkStore =>
      simp only [hpc, Option.some.injEq] at hst
      subst hst
      exact { hrefl with parked := List.subset_append_left _ _ }
  | readT1 | readStart | storeCurrent | progress =>
      simp only [hpc, Option.some.injEq] at hst
      subst hst
      exact { hrefl with }
  | spin | log | loadMax | parkLoad =>
      simp only [hpc] at hst
      split at hst
      · cases hst
        exact { hrefl with }
      · cases hst
        exact { hrefl with }
  | done => simp only [hpc, reduceCtorEq] at hst

private theorem grows_step (h : Accounted s) {act : Act Rx Fill} (hst : s.step xsk act = some t) :
    Grows s t := by
  have hrefl := Grows.refl s
  cases act with
  | engine =>
      simp only [Demo.step] at hst
      split at hst
      · exact grows_advance h hst
      · next add adds hpending =>
          cases hst
          exact { hrefl with
            totals := by
              rw [h.ofStats_apply hpending]
              exact Totals.le_add _ add }
  | device ring | kernel portal | setLaserTemp temp =>
      cases hst
      exact { hrefl with }
  | tick clock =>
      simp only [Demo.step] at hst
      obtain ⟨-, rfl⟩ := of_guard hst
      exact { hrefl with }

end Growth

/-! ## Dashboards -/

/-- What one screen shows. -/
structure Frame where
  packets : UInt64
  throughput : UInt64
  drops : UInt64
  tempCur : UInt32
  tempMax : UInt32
  deriving DecidableEq, Repr

/-- The field loaded next. -/
inductive Field
  | packets
  | throughput
  | drops
  | tempCur
  | tempMax
  deriving DecidableEq, Repr

/-- A dashboard: the fields of its screen, which it overwrites one after the
other, and the frames it has shown, the last one last. -/
structure Reader where
  next : Field
  frame : Frame
  shown : List Frame
  deriving DecidableEq, Repr

/-- A dashboard that has just attached. -/
def Reader.attached : Reader :=
  { next := .packets
    frame := { packets := 0, throughput := 0, drops := 0, tempCur := 0, tempMax := 0 }
    shown := [] }

/-- The next load; the last one of a frame shows it. -/
def Reader.load (r : Reader) (block : Telemetry) : Reader :=
  match r.next with
  | .packets =>
      { r with next := .throughput, frame := { r.frame with packets := block.stats.totalPackets } }
  | .throughput =>
      { r with next := .drops, frame := { r.frame with throughput := block.stats.totalBytes } }
  | .drops =>
      { r with next := .tempCur, frame := { r.frame with drops := block.stats.droppedPackets } }
  | .tempCur =>
      { r with next := .tempMax, frame := { r.frame with tempCur := block.currentTempMc } }
  | .tempMax =>
      { next := .packets
        frame := { r.frame with tempMax := block.maxTempMc }
        shown := r.shown ++ [{ r.frame with tempMax := block.maxTempMc }] }

/-- The demo, and any number of dashboards that read its telemetry. -/
structure Watched (Rx Fill : Type) where
  demo : Demo Rx Fill
  readers : Nat → Reader

/-- A step of the demo, or the next load of the reader `k`. -/
inductive WatchedAct (Rx Fill : Type)
  | demo (act : Act Rx Fill)
  | load (k : Nat)

namespace Watched

variable (xsk : Xsk Rx Fill)

/-- One step of the demo or of a reader. -/
def step (s : Watched Rx Fill) : WatchedAct Rx Fill → Option (Watched Rx Fill)
  | .demo act => (s.demo.step xsk act).map fun demo => { s with demo := demo }
  | .load k =>
      some { s with
        readers := Function.update s.readers k ((s.readers k).load s.demo.telemetry) }

/-- The demo at its start, and dashboards about to load their first frames. -/
structure Start (s : Watched Rx Fill) : Prop where
  demo : Demo.Start s.demo
  readers : ∀ k, s.readers k = .attached

/-- All interleavings of the demo with its readers. -/
def system : System (Watched Rx Fill) (WatchedAct Rx Fill) := .ofStep Start (step xsk)

end Watched

/-! ## What a frame can be relied on for -/

/-- No field that only goes up is smaller. -/
structure Frame.Le (f g : Frame) : Prop where
  packets : f.packets ≤ g.packets
  throughput : f.throughput ≤ g.throughput
  drops : f.drops ≤ g.drops
  tempMax : f.tempMax ≤ g.tempMax

theorem Frame.Le.refl (f : Frame) : Frame.Le f f where
  packets := UInt64.le_refl _
  throughput := UInt64.le_refl _
  drops := UInt64.le_refl _
  tempMax := UInt32.le_refl _

theorem Frame.Le.trans {f g h : Frame} (hfg : Frame.Le f g) (hgh : Frame.Le g h) :
    Frame.Le f h where
  packets := UInt64.le_trans hfg.packets hgh.packets
  throughput := UInt64.le_trans hfg.throughput hgh.throughput
  drops := UInt64.le_trans hfg.drops hgh.drops
  tempMax := UInt32.le_trans hfg.tempMax hgh.tempMax

/-- The block as a screen would show it. -/
def screen (block : Telemetry) : Frame :=
  { packets := block.stats.totalPackets
    throughput := block.stats.totalBytes
    drops := block.stats.droppedPackets
    tempCur := block.currentTempMc
    tempMax := block.maxTempMc }

/-- A dashboard next to a demo. -/
structure Follows (r : Reader) (s : Demo Rx Fill) : Prop where
  behind : Frame.Le r.frame (screen s.telemetry)
  shown : ∀ f ∈ r.shown, Frame.Le f r.frame
  ordered : r.shown.Pairwise Frame.Le
  loaded : r.next = .tempMax →
    r.frame.tempCur ≤ s.telemetry.maxTempMc ∨ r.frame.tempCur ∈ s.history.parked
  below : ∀ f ∈ r.shown, f.tempCur ≤ f.tempMax ∨ f.tempCur ∈ s.history.parked

section Follow

variable {r : Reader} {s t : Demo Rx Fill}

private theorem Grows.screen_le (h : Grows s t) :
    Frame.Le (screen s.telemetry) (screen t.telemetry) where
  packets := UInt64.le_iff_toNat_le.mpr h.totals.packets
  throughput := UInt64.le_iff_toNat_le.mpr h.totals.bytes
  drops := UInt64.le_iff_toNat_le.mpr h.totals.drops
  tempMax := h.highest

/-- The engine's steps leave a dashboard where it was. -/
theorem Follows.grow (h : Follows r s) (hgrows : Grows s t) : Follows r t where
  behind := h.behind.trans hgrows.screen_le
  shown := h.shown
  ordered := h.ordered
  loaded := fun hnext => (h.loaded hnext).imp
    (fun hle => UInt32.le_trans hle hgrows.highest) fun hmem => hgrows.parked hmem
  below := fun f hf => (h.below f hf).imp_right fun hmem => hgrows.parked hmem

/-- And so do its own loads. -/
theorem Follows.load (h : Follows r s) (hacc : Accounted s) : Follows (r.load s.telemetry) s := by
  unfold Reader.load
  cases hnext : r.next with
  | packets =>
      have hraise : Frame.Le r.frame { r.frame with packets := s.telemetry.stats.totalPackets } :=
        { Frame.Le.refl r.frame with packets := h.behind.packets }
      exact { h with
        behind := { h.behind with packets := UInt64.le_refl _ }
        shown := fun f hf => (h.shown f hf).trans hraise
        loaded := nofun }
  | throughput =>
      have hraise : Frame.Le r.frame { r.frame with throughput := s.telemetry.stats.totalBytes } :=
        { Frame.Le.refl r.frame with throughput := h.behind.throughput }
      exact { h with
        behind := { h.behind with throughput := UInt64.le_refl _ }
        shown := fun f hf => (h.shown f hf).trans hraise
        loaded := nofun }
  | drops =>
      have hraise : Frame.Le r.frame { r.frame with drops := s.telemetry.stats.droppedPackets } :=
        { Frame.Le.refl r.frame with drops := h.behind.drops }
      exact { h with
        behind := { h.behind with drops := UInt64.le_refl _ }
        shown := fun f hf => (h.shown f hf).trans hraise
        loaded := nofun }
  | tempCur =>
      exact { h with
        behind := { h.behind with }
        shown := fun f hf => { h.shown f hf with }
        loaded := fun _ => hacc.published }
  | tempMax =>
      have hraise : Frame.Le r.frame { r.frame with tempMax := s.telemetry.maxTempMc } :=
        { Frame.Le.refl r.frame with tempMax := h.behind.tempMax }
      have hshown : ∀ f ∈ r.shown, Frame.Le f { r.frame with tempMax := s.telemetry.maxTempMc } :=
        fun f hf => (h.shown f hf).trans hraise
      exact
        { behind := { h.behind with tempMax := UInt32.le_refl _ }
          shown := by
            intro f hf
            rcases List.mem_append.mp hf with hold | hnew
            · exact hshown f hold
            · exact List.mem_singleton.mp hnew ▸ .refl _
          ordered := by
            refine List.pairwise_append.mpr ⟨h.ordered, List.pairwise_singleton _ _, ?_⟩
            intro f hf g hg
            exact List.mem_singleton.mp hg ▸ hshown f hf
          loaded := nofun
          below := by
            intro f hf
            rcases List.mem_append.mp hf with hold | hnew
            · exact h.below f hold
            · exact List.mem_singleton.mp hnew ▸ h.loaded hnext }

theorem Follows.attached (s : Demo Rx Fill) : Follows .attached s where
  behind :=
    { packets := UInt64.le_iff_toNat_le.mpr (Nat.zero_le _)
      throughput := UInt64.le_iff_toNat_le.mpr (Nat.zero_le _)
      drops := UInt64.le_iff_toNat_le.mpr (Nat.zero_le _)
      tempMax := UInt32.le_iff_toNat_le.mpr (Nat.zero_le _) }
  shown := List.forall_mem_nil _
  ordered := .nil
  loaded := nofun
  below := List.forall_mem_nil _

end Follow

/-! ## Any number of dashboards -/

section Runs

variable {xsk : Xsk Rx Fill} {s t : Watched Rx Fill}

/-- The demo accounts for itself, and every reader follows it. -/
structure Inv (s : Watched Rx Fill) : Prop where
  demo : Accounted s.demo
  readers : ∀ k, Follows (s.readers k) s.demo

theorem Inv.step (h : Inv s) {act : WatchedAct Rx Fill} (hst : s.step xsk act = some t) :
    Inv t := by
  cases act with
  | demo act =>
      obtain ⟨demo, hdemo, rfl⟩ := Option.map_eq_some_iff.mp hst
      exact
        { demo := h.demo.step hdemo
          readers := fun k => (h.readers k).grow (grows_step h.demo hdemo) }
  | load k =>
      cases hst
      refine { h with readers := ?_ }
      intro j
      dsimp only
      by_cases hj : j = k
      · subst hj
        rw [Function.update_self]
        exact (h.readers j).load h.demo
      · rw [Function.update_of_ne hj]
        exact h.readers j

/-- **Frames of any dashboard, in any interleaving with the engine, the device,
the NIC and other dashboards**: its packets, bytes, drops and maximum never go
back from one frame to a later one, and a frame that shows a current
temperature above the maximum shows one the parking loop has stored.  So while
the engine has not parked, `Temp (Cur)` never exceeds `Temp (Max)`, although
no frame is a snapshot. -/
theorem frames_ordered (h : (Watched.system xsk).Reachable s) (k : Nat) :
    (s.readers k).shown.Pairwise Frame.Le ∧
      (∀ f ∈ (s.readers k).shown, f.tempMax < f.tempCur → f.tempCur ∈ s.demo.history.parked) ∧
      (s.demo.history.parked = [] → ∀ f ∈ (s.readers k).shown, f.tempCur ≤ f.tempMax) := by
  have hinv : Inv s := h.invariant
    (fun s hs =>
      { demo := .start hs.demo
        readers := fun k => by
          rw [hs.readers k]
          exact .attached _ })
    fun _ _ _ hs hst => hs.step hst
  have hbelow := (hinv.readers k).below
  refine ⟨(hinv.readers k).ordered, ?_, ?_⟩
  · intro f hf hlt
    exact (hbelow f hf).resolve_left (UInt32.not_le.mpr hlt)
  · intro hnone f hf
    refine (hbelow f hf).resolve_right ?_
    rw [hnone]
    exact List.not_mem_nil

/-- The device has left the ring full before the first transmission. -/
def parkAtOnce : List (Act XskRingCons XskRingProd) :=
  [.engine, .engine, .engine, .engine,
    .device fullRing, .engine, .engine]

/-- The demo parks at once, and a dashboard loads a frame. -/
def parkedFrame : List (WatchedAct XskRingCons XskRingProd) :=
  (parkAtOnce ++ [Act.engine, .engine, .engine]).map .demo ++
    [.load 0, .load 0, .load 0, .load 0, .load 0]

/-- A maximum of 0 under a current temperature of 25 degrees. -/
theorem frames_ordered_parked :
    ∃ (s : Watched XskRingCons XskRingProd) (f : Frame),
      f ∈ (s.readers 0).shown ∧ f.tempMax < f.tempCur ∧ f.tempCur ∈ s.demo.history.parked := by
  obtain ⟨s, hexec, hs⟩ := exec_of_any (Watched.step xskDefault)
    { demo := demoStart, readers := fun _ => .attached } parkedFrame
    (fun s => ∃ f ∈ (s.readers 0).shown, f.tempMax < f.tempCur) (by decide)
  obtain ⟨f, hf, hlt⟩ := of_decide_eq_true hs
  have hreach : (Watched.system xskDefault).Reachable s :=
    reachable_of_exec { demo := demoStart_start, readers := fun _ => rfl } hexec
  obtain ⟨-, hparked, -⟩ := frames_ordered hreach 0
  exact ⟨s, f, hf, hlt, hparked f hf hlt⟩

end Runs

end PorthCore.Ports.Dashboard
