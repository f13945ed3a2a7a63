import PorthCore.Verified.Transition
import PorthCore.Ports.Driver

/-!
# What `receive` returns

Transmissions, receptions and whole device passes in any order, on a ring of
any admitted size.  Submissions are numbered in the order they are accepted;
`slotId` records which submission a slot was last written with, `consumed`
lists the submissions passes have popped and counted, `received` those
`receive` has returned.

Submission and completion share the one ring.  A pass that ends leaves it
empty, so what is queued was submitted after the last pass and no pass has
seen it (`Inv`).  Hence `receive` keeps its promise exactly when it has
nothing to return (`receive_ok_iff_empty`).
-/

namespace PorthCore.Ports.Completion

open PorthCore.Verified.Transition
open PorthCore.Verified.Circular
open PorthCore.Ports.RingBuffer
open PorthCore.Ports.SimDevice
open PorthCore.Ports.Driver

/-- One ring of a driver and a twin: `issued` counts the descriptors accepted,
and `slotId` says which of them a slot holds. -/
structure Shared where
  sim : PorthSimDevice
  mem : Heap
  stats : Option PorthStats
  issued : Nat
  slotId : Nat → Option Nat
  consumed : List Nat
  received : List Nat

/-- A call of the driver, or a whole pass of the twin. -/
inductive SharedOp
  | transmit (desc : PorthDescriptor)
  | receive (outDesc : PorthDescriptor)
  | pass

namespace Shared

variable (g : RingGeometry) (a : RingAddress)

/-- The ring both sides use. -/
def ring (s : Shared) : PorthRingBuffer := s.mem a.addr

/-- The driver calls `transmit`. -/
def transmitted (s : Shared) (desc : PorthDescriptor) : Shared :=
  let r := transmit g.size (s.ring a) s.stats desc
  { s with
    mem := Function.update s.mem a.addr r.2.1
    stats := r.2.2
    issued := if r.1 = .success then s.issued + 1 else s.issued
    slotId :=
      if r.1 = .success then Function.update s.slotId (s.ring a).head.toNat (some s.issued)
      else s.slotId }

/-- The submission in the slot that the next pop reads. -/
def front (s : Shared) : Option Nat := s.slotId (s.ring a).tail.toNat

/-- The driver calls `receive`. -/
def afterReceive (s : Shared) (outDesc : PorthDescriptor) : Shared :=
  let r := receive g.size (s.ring a) outDesc
  { s with
    mem := Function.update s.mem a.addr r.2.2
    received := if r.1 = .success then s.received ++ (s.front a).toList else s.received }

/-- A pass of `process_dma` has ended. -/
def passed (s : Shared) (pass : DmaPass) : Shared :=
  { s with
    sim := pass.sim
    mem := pass.mem
    consumed := s.consumed ++ pass.popped.filterMap fun slot => s.slotId slot.1.toNat }

/-- A pass is a step only if it ends. -/
def step (s : Shared) (op : SharedOp) (t : Shared) : Prop :=
  match op with
  | .transmit desc => t = s.transmitted g a desc
  | .receive outDesc => t = s.afterReceive g a outDesc
  | .pass => ∃ fuel pass, processDma fuel s.sim s.mem = some pass ∧ t = s.passed pass

/-- A fresh ring behind the handshake with a device that has latched no
other. -/
structure Start (s : Shared) : Prop where
  fresh : ∃ slots, s.ring a = .fresh slots
  dataPtr : s.sim.dev.dataPtr = a.addr
  latch : s.sim.lastValidShuttle = 0 ∨ s.sim.lastValidShuttle = a.addr
  issued : s.issued = 0
  slotId : s.slotId = fun _ => none
  consumed : s.consumed = []
  received : s.received = []

/-- Calls and passes in any order. -/
def system : System Shared SharedOp := { init := Start a, step := step g a }

/-- What the documentation of `receive` says of a call made now: a descriptor
it returns has been through the device, and it returns `EMPTY` when everything
the device completed has been received. -/
def ReceiveOk (s : Shared) : Prop :=
  ∀ outDesc,
    ((receive g.size (s.ring a) outDesc).1 = .success →
      ∃ id ∈ s.consumed, s.front a = some id) ∧
    ((∀ id ∈ s.consumed, id ∈ s.received) →
      (receive g.size (s.ring a) outDesc).1 = .empty)

/-! ## The invariant -/

/-- `q` is queued at `pos` and `ids` are its submissions. -/
structure Inv (s : Shared) (pos : Nat) (q : List PorthDescriptor) (ids : List Nat) : Prop where
  dataPtr : s.sim.dev.dataPtr = a.addr
  latch : s.sim.lastValidShuttle = 0 ∨ s.sim.lastValidShuttle = a.addr
  queue : Represents g (s.ring a) pos q
  length : ids.length = q.length
  slots : Holds g.period s.slotId pos (ids.map some)
  unseen : ∀ id ∈ ids, id ∉ s.consumed
  slots_lt : ∀ slot id, s.slotId slot = some id → id < s.issued
  consumed_lt : ∀ id ∈ s.consumed, id < s.issued

variable {g : RingGeometry} {a : RingAddress} {s : Shared} {pos : Nat}
  {q : List PorthDescriptor} {ids : List Nat}

theorem start_inv (h : Start a s) : Inv g a s 0 [] [] := by
  obtain ⟨slots, hring⟩ := h.fresh
  refine
    { dataPtr := h.dataPtr
      latch := h.latch
      queue := ?_
      length := rfl
      slots := Holds.nil _ _ _
      unseen := fun id hid => absurd hid List.not_mem_nil
      slots_lt := ?_
      consumed_lt := ?_ }
  · rw [hring]
    exact represents_fresh g slots
  · intro slot id hid
    rw [h.slotId] at hid
    cases hid
  · intro id hid
    rw [h.consumed] at hid
    cases hid

/-- A transmission queues a submission no pass has seen. -/
theorem Inv.transmitted (h : Inv g a s pos q ids) (desc : PorthDescriptor) :
    ∃ q' ids', Inv g a (s.transmitted g a desc) pos q' ids' := by
  rcases transmit_cases h.queue s.stats desc with ⟨ring', heq, hroom, hnext⟩ | ⟨heq, -⟩
  · refine ⟨q ++ [desc], ids ++ [s.issued], ?_⟩
    simp only [Shared.transmitted, heq, if_true]
    refine
      { dataPtr := h.dataPtr
        latch := h.latch
        queue := by simpa only [ring, Function.update_self] using hnext
        length := by simp only [List.length_append, h.length, List.length_singleton]
        slots := ?_
        unseen := ?_
        slots_lt := ?_
        consumed_lt := fun id hid => Nat.lt_succ_of_lt (h.consumed_lt id hid) }
    · have hlen : (ids.map some).length = q.length := by rw [List.length_map, h.length]
      rw [List.map_append, h.queue.head_eq]
      refine Holds.push ?_ ?_
      · rw [← hlen]
        exact h.slots.write_back (by have := h.queue.room; omega) _
      · rw [hlen]
        exact Function.update_self ..
    · intro id hid
      rcases List.mem_append.mp hid with hid | hid
      · exact h.unseen id hid
      · rw [List.mem_singleton] at hid
        subst hid
        exact fun hmem => Nat.lt_irrefl _ (h.consumed_lt _ hmem)
    · intro slot id hid
      dsimp only at hid ⊢
      by_cases hslot : slot = (s.ring a).head.toNat
      · subst hslot
        rw [Function.update_self, Option.some.injEq] at hid
        omega
      · rw [Function.update_of_ne hslot] at hid
        exact Nat.lt_succ_of_lt (h.slots_lt slot id hid)
  · refine ⟨q, ids, ?_⟩
    simp only [Shared.transmitted, heq, reduceCtorEq, if_false]
    exact
      { dataPtr := h.dataPtr
        latch := h.latch
        queue := by simpa only [ring, Function.update_self] using h.queue
        length := h.length
        slots := h.slots
        unseen := h.unseen
        slots_lt := h.slots_lt
        consumed_lt := h.consumed_lt }

theorem Inv.afterReceive (h : Inv g a s pos q ids) (outDesc : PorthDescriptor) :
    ∃ pos' q' ids', Inv g a (s.afterReceive g a outDesc) pos' q' ids' := by
  cases q with
  | nil =>
      have heq := receive_empty h.queue outDesc
      refine ⟨pos, [], ids, ?_⟩
      simp only [Shared.afterReceive, heq, reduceCtorEq, if_false]
      exact
        { dataPtr := h.dataPtr
          latch := h.latch
          queue := by simpa only [ring, Function.update_self] using h.queue
          length := h.length
          slots := h.slots
          unseen := h.unseen
          slots_lt := h.slots_lt
          consumed_lt := h.consumed_lt }
  | cons desc q =>
      obtain ⟨ring', heq, hnext⟩ := receive_cons h.queue outDesc
      obtain ⟨id, ids, rfl⟩ := List.exists_cons_of_length_eq_add_one h.length
      refine ⟨pos + 1, q, ids, ?_⟩
      simp only [Shared.afterReceive, heq, if_true]
      exact
        { dataPtr := h.dataPtr
          latch := h.latch
          queue := by simpa only [ring, Function.update_self] using hnext
          length := Nat.succ.inj h.length
          slots := h.slots.tail
          unseen := fun id' hid => h.unseen id' (List.mem_cons_of_mem _ hid)
          slots_lt := h.slots_lt
          consumed_lt := h.consumed_lt }

/-- A pass that ends has met `m_head`, whatever it popped: nothing is queued
behind it. -/
theorem Inv.passed (h : Inv g a s pos q ids) {fuel : Nat} {pass : DmaPass}
    (hpass : processDma fuel s.sim s.mem = some pass) :
    Inv g a (s.passed pass) (s.ring a).head.toNat [] [] := by
  rw [processDma_accept s.mem _ h.dataPtr h.latch, Option.map_eq_some_iff] at hpass
  obtain ⟨d, hdrain, rfl⟩ := hpass
  refine
    { dataPtr := h.dataPtr
      latch := .inr rfl
      queue := ?_
      length := rfl
      slots := Holds.nil _ _ _
      unseen := fun id hid => absurd hid List.not_mem_nil
      slots_lt := h.slots_lt
      consumed_lt := ?_ }
  · simp only [Shared.passed, ring, Function.update_self]
    exact drain_empties h.queue hdrain
  · intro id hid
    rcases List.mem_append.mp hid with hid | hid
    · exact h.consumed_lt id hid
    · obtain ⟨slot, -, hslot⟩ := List.mem_filterMap.mp hid
      exact h.slots_lt _ id hslot

theorem Inv.step {t : Shared} {op : SharedOp} (h : Inv g a s pos q ids)
    (hstep : Shared.step g a s op t) : ∃ pos' q' ids', Inv g a t pos' q' ids' := by
  cases op with
  | transmit desc =>
      subst hstep
      obtain ⟨q', ids', h'⟩ := h.transmitted desc
      exact ⟨pos, q', ids', h'⟩
  | receive outDesc =>
      subst hstep
      exact h.afterReceive outDesc
  | pass =>
      obtain ⟨fuel, pass, hpass, rfl⟩ := hstep
      exact ⟨_, _, _, h.passed hpass⟩

theorem reachable_inv (h : (system g a).Reachable s) : ∃ pos q ids, Inv g a s pos q ids := by
  refine System.Reachable.invariant (I := fun s => ∃ pos q ids, Inv g a s pos q ids)
    (fun _ hs => ⟨0, [], [], start_inv hs⟩) ?_ h
  rintro s op t ⟨pos, q, ids, hs⟩ hstep
  exact hs.step hstep

/-- **When `receive` keeps its promise.**  In every reachable state a call
returns only completed work, and `EMPTY` when there is none, if and only if
the ring is empty: it never returns completed work. -/
theorem receive_ok_iff_empty (g : RingGeometry) (a : RingAddress) {s : Shared}
    (h : (system g a).Reachable s) :
    ReceiveOk g a s ↔ (s.ring a).head = (s.ring a).tail := by
  obtain ⟨pos, q, ids, hinv⟩ := reachable_inv h
  constructor
  · intro hok
    rw [hinv.queue.empty_iff]
    cases q with
    | nil => rfl
    | cons desc q =>
        obtain ⟨ring', heq, -⟩ := receive_cons hinv.queue default
        obtain ⟨id, ids, rfl⟩ := List.exists_cons_of_length_eq_add_one hinv.length
        obtain ⟨id', hmem, hfront⟩ := (hok default).1 (by rw [heq])
        have hslot : s.front a = some id := by
          rw [front, hinv.queue.tail_eq]
          exact hinv.slots.head
        rw [hslot, Option.some.injEq] at hfront
        subst hfront
        exact absurd hmem (hinv.unseen id List.mem_cons_self)
  · intro hempty outDesc
    have hnil := hinv.queue.empty_iff.mp hempty
    subst hnil
    rw [receive_empty hinv.queue outDesc]
    exact ⟨fun hsuccess => PorthStatus.noConfusion hsuccess, fun _ => rfl⟩

/-! ## A submission received before the device saw it -/

/-- A fresh ring of 1024 at 2 MiB behind the handshake. -/
def sampleStart : Shared where
  sim :=
    { PorthSimDevice.fresh with dev := { PorthSimDevice.fresh.dev with dataPtr := 0x200000 } }
  mem := fun _ => .fresh fun _ => default
  stats := none
  issued := 0
  slotId := fun _ => none
  consumed := []
  received := []

theorem sampleStart_reachable : (system .default1024 .twoMiB).Reachable sampleStart :=
  System.Reachable.of_init
    { fresh := ⟨_, rfl⟩
      dataPtr := rfl
      latch := .inl rfl
      issued := rfl
      slotId := rfl
      consumed := rfl
      received := rfl }

/-- One submission, and no pass. -/
def submitted : Shared := sampleStart.transmitted .default1024 .twoMiB ⟨0x1000, 64⟩

theorem submitted_reachable : (system .default1024 .twoMiB).Reachable submitted :=
  sampleStart_reachable.step (a := .transmit _) rfl

/-- A pass has completed it. -/
def completed : Shared := submitted.passed (passWithin 2 submitted.sim submitted.mem)

theorem completed_reachable : (system .default1024 .twoMiB).Reachable completed :=
  submitted_reachable.step (a := .pass) ⟨2, _, processDma_within (by decide +kernel), rfl⟩

/-- The next submission. -/
def resubmitted : Shared := completed.transmitted .default1024 .twoMiB ⟨0x2000, 128⟩

/-- After the pass the ring is empty; with the next submission it is not, and
`receive` returns what no pass has seen. -/
theorem receive_ok_completed :
    completed.consumed = [0] ∧ resubmitted.consumed = [0] ∧
      ReceiveOk .default1024 .twoMiB completed ∧
      ¬ ReceiveOk .default1024 .twoMiB resubmitted := by
  have hagain : (system .default1024 .twoMiB).Reachable resubmitted :=
    completed_reachable.step (a := .transmit _) rfl
  refine ⟨by decide +kernel, by decide +kernel, ?_, ?_⟩
  · rw [receive_ok_iff_empty .default1024 .twoMiB completed_reachable]
    decide +kernel
  · rw [receive_ok_iff_empty .default1024 .twoMiB hagain]
    decide +kernel

theorem receive_returns_uncompleted :
    (system .default1024 .twoMiB).Reachable submitted ∧
      ¬ ReceiveOk .default1024 .twoMiB submitted ∧
      submitted.consumed = [] ∧
      ((receive 1024 (submitted.ring .twoMiB) default).1,
        (receive 1024 (submitted.ring .twoMiB) default).2.1) =
          (.success, ⟨0x1000, 64⟩) := by
  refine ⟨submitted_reachable, ?_, rfl, by decide +kernel⟩
  intro hok
  have hempty := (hok default).2 fun id hid => absurd hid List.not_mem_nil
  exact absurd hempty (by decide +kernel)

end Shared

end PorthCore.Ports.Completion
