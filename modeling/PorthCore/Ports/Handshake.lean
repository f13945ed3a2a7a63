import PorthCore.Verified.Transition
import PorthCore.Ports.Driver

/-!
# Whose ring `data_ptr` names

Any number of drivers are constructed on one register file and destroyed, in
any order.  A construction commits its ring's address to `data_ptr` before the
last step that can fail, the creation of the watchdog thread; when that throws,
the shuttle is destroyed with the other members and `~Driver`, which would
have cleared the register, does not run.

Addresses may be used again.  `NamesLive` therefore speaks of the last ring
created at the address: a driver whose ring the register names has not
destroyed it, unless the address has gone to a later ring that is alive.

In a run every state has the property if and only if no construction of the
run throws at the thread (`names_live_iff`).
-/

namespace PorthCore.Ports.Handshake

open PorthCore.Verified.Transition
open PorthCore.Ports.SimDevice
open PorthCore.Ports.Driver

/-- A ring some construction created, and whether its shuttle exists. -/
structure Ring where
  address : RingAddress
  lives : Bool

/-- The register file and the rings created so far, oldest first. -/
structure RegisterFile where
  dev : PorthDeviceLayout
  rings : List Ring

/-- A construction with its outcome, or a destruction. -/
inductive LifecycleOp
  | construct (address : RingAddress) (outcome : Construction)
  | destroy (i : Nat)

/-- Whether the operation is a construction that throws at the thread. -/
def LifecycleOp.threadThrows : LifecycleOp → Bool
  | .construct _ outcome => decide (outcome = .threadThrows)
  | .destroy _ => false

namespace RegisterFile

/-- A construction that gets as far as the shuttle creates a ring. -/
def constructed (s : RegisterFile) (address : RingAddress) (outcome : Construction) :
    RegisterFile where
  dev := construct s.dev address.addr outcome
  rings :=
    match outcome with
    | .shuttleThrows => s.rings
    | .threadThrows | .built =>
        s.rings ++ [{ address := address, lives := outcome.ringLives }]

/-- The destruction of the driver of ring `i`. -/
def destroyed (s : RegisterFile) (i : Nat) : RegisterFile where
  dev := destruct s.dev
  rings := s.rings.modify i fun ring => { ring with lives := false }

/-- Only a driver that exists can be destroyed. -/
def step (s : RegisterFile) (op : LifecycleOp) (t : RegisterFile) : Prop :=
  match op with
  | .construct address outcome => t = s.constructed address outcome
  | .destroy i => (∃ ring, s.rings[i]? = some ring ∧ ring.lives = true) ∧ t = s.destroyed i

/-- No driver yet; the registers hold anything. -/
def system : System RegisterFile LifecycleOp where
  init := fun s => s.rings = []
  step := step

/-- If `data_ptr` is the address of a ring, that ring's shuttle exists, or the
address belongs to a later ring whose shuttle does. -/
def NamesLive (s : RegisterFile) : Prop :=
  ∀ i (ring : Ring), s.rings[i]? = some ring → s.dev.dataPtr = ring.address.addr →
    ring.lives = true ∨
      ∃ (j : Nat) (later : Ring), i < j ∧ s.rings[j]? = some later ∧
        later.address.addr = s.dev.dataPtr ∧ later.lives = true

variable {s t : RegisterFile}

/-- The register was just set to the newest ring's address, which is alive. -/
theorem namesLive_built (address : RingAddress) : NamesLive (s.constructed address .built) := by
  intro i ring hring hptr
  change (s.rings ++ [(⟨address, true⟩ : Ring)])[i]? = some ring at hring
  rcases Nat.lt_trichotomy i s.rings.length with hi | rfl | hi
  · refine .inr ⟨s.rings.length, ⟨address, true⟩, hi, ?_, rfl, rfl⟩
    exact List.getElem?_concat_length
  · rw [List.getElem?_concat_length, Option.some.injEq] at hring
    subst hring
    exact .inl rfl
  · rw [List.getElem?_eq_none (by rw [List.length_append]; exact hi)] at hring
    cases hring

/-- No ring sits at the 0 a destructor writes. -/
theorem namesLive_destroyed (i : Nat) : NamesLive (s.destroyed i) := by
  intro j ring _ hptr
  exact absurd hptr.symm ring.address.ne_zero

/-- **The published address of a ring that is already gone.** -/
theorem not_namesLive_threadThrows (address : RingAddress) :
    ¬ NamesLive (s.constructed address .threadThrows) := by
  intro h
  have hring : (s.constructed address .threadThrows).rings[s.rings.length]? =
      some ⟨address, false⟩ := List.getElem?_concat_length
  rcases h _ _ hring rfl with hlives | ⟨j, later, hj, hlater, -, -⟩
  · cases hlives
  · change (s.rings ++ [(⟨address, false⟩ : Ring)])[j]? = some later at hlater
    rw [List.getElem?_eq_none (by rw [List.length_append]; exact hj)] at hlater
    cases hlater

theorem NamesLive.step {op : LifecycleOp} (h : NamesLive s) (hop : op.threadThrows = false)
    (hstep : RegisterFile.step s op t) : NamesLive t := by
  cases op with
  | construct address outcome =>
      cases outcome with
      | shuttleThrows =>
          subst hstep
          exact h
      | threadThrows => cases hop
      | built =>
          subst hstep
          exact namesLive_built address
  | destroy i =>
      obtain ⟨-, rfl⟩ := hstep
      exact namesLive_destroyed i

/-- **When the register never names a dead ring.**  Every state a run passes
through has the property if and only if no construction in the run throws at
the creation of the watchdog thread. -/
theorem names_live_iff {ops : List LifecycleOp} (hs : s.rings = [])
    (hrun : system.Run s ops t) :
    (∀ before u, before <+: ops → system.Run s before u → NamesLive u) ↔
      ∀ op ∈ ops, op.threadThrows = false := by
  constructor
  · intro hall op hmem
    by_contra hthrows
    obtain ⟨before, after, rfl⟩ := List.append_of_mem hmem
    obtain ⟨u, v, hbefore, hstep, -⟩ := hrun.of_append_cons
    have hlive := hall (before ++ [op]) v ⟨after, by simp⟩ (hbefore.concat hstep)
    cases op with
    | destroy i => exact hthrows rfl
    | construct address outcome =>
        cases outcome with
        | shuttleThrows => exact hthrows rfl
        | built => exact hthrows rfl
        | threadThrows =>
            cases hstep
            exact not_namesLive_threadThrows address hlive
  · intro hnone before u hfirst hbefore
    have hstart : NamesLive s := by
      intro i ring hring
      rw [hs] at hring
      cases hring
    have hlabels : ∀ op ∈ before, op.threadThrows = false := fun op hmem =>
      hnone op (hfirst.subset hmem)
    refine (hbefore.restrict_labels (C := fun op => op.threadThrows = false) hlabels).preserves
      (I := NamesLive) ?_ hstart
    rintro s op t h ⟨hop, hstep⟩
    exact h.step hop hstep

/-! ## Two sequences -/

/-- The register file of a fresh device. -/
def sampleStart : RegisterFile := { dev := PorthSimDevice.fresh.dev, rings := [] }

/-- A driver, a failed allocation, the driver's end, and a second driver where
the first was. -/
def sampleOps : List LifecycleOp :=
  [ .construct .twoMiB .built
  , .construct .twoMiB .shuttleThrows
  , .destroy 0
  , .construct .twoMiB .built ]

private theorem sampleOps_run :
    ∃ t, system.Run sampleStart sampleOps t := by
  refine ⟨_, .cons rfl (.cons rfl (.cons ⟨⟨⟨.twoMiB, true⟩, rfl, rfl⟩, rfl⟩
    (.cons rfl (.nil _))))⟩

theorem names_live_reused_address :
    (∃ t, system.Run sampleStart sampleOps t) ∧
      ∀ before u, before <+: sampleOps → system.Run sampleStart before u → NamesLive u := by
  obtain ⟨t, hrun⟩ := sampleOps_run
  refine ⟨⟨t, hrun⟩, (names_live_iff rfl hrun).mpr ?_⟩
  intro op hmem
  simp only [sampleOps, List.mem_cons, List.not_mem_nil, or_false] at hmem
  rcases hmem with rfl | rfl | rfl | rfl <;> rfl

/-- One construction, which throws at the thread. -/
theorem names_dead_ring :
    ∃ u, system.Run sampleStart [.construct .twoMiB .threadThrows] u ∧
      u.rings = [⟨.twoMiB, false⟩] ∧ u.dev.dataPtr = RingAddress.twoMiB.addr ∧
      ¬ NamesLive u :=
  ⟨_, .cons rfl (.nil _), rfl, rfl, not_namesLive_threadThrows .twoMiB⟩

end RegisterFile

end PorthCore.Ports.Handshake
