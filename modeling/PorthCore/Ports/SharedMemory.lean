import Mathlib.Logic.Function.Basic
import PorthCore.Verified.Transition

/-!
# Names in `/dev/shm`: chips, dashboards and who shares with whom

`PorthMockDevice` and `PorthTelemetryHub` are constructed by name, as the owner
of a segment or as a client of one.  Any number of processes do so at the same
time, one system call after the other; every call may fail, and a process may
be killed between two of them, so that a destructor never runs.

A segment is identified by the reading of `clock` at the `shm_open` that
created it; the clock counts the calls of `shm_open`.  Of a segment's contents
the model keeps who has stored to it since it was last all zero, each by the
reading of its own `shm_open`.

Only a chip unlinks its name before it opens it.  As long as a name has one
owner at a time, this is what keeps its sessions apart, whatever names were
left behind before (`session_isolated`).  But nobody looks whether the name
went away, and a chip whose `shm_unlink` failed on a leftover runs on its
registers (`own_segment_iff`).
-/

namespace PorthCore.Ports.SharedMemory

open PorthCore.Verified.Transition
open PorthCore.Verified.Transition.System

/-- The two classes. -/
inductive Kind
  | mockDevice
  | telemetryHub
  deriving DecidableEq, Repr

/-- `sizeof(PorthDeviceLayout)` and `sizeof(PorthStats)`. -/
def Kind.layoutSize : Kind → Nat
  | .mockDevice => 512
  | .telemetryHub => 48

/-- The next system call of an object.  `broken` is a client of a hub whose
`mmap` has failed: nobody checks. -/
inductive Phase
  | absent
  | unlinkFirst
  | open
  | truncate
  | chmod
  | map
  | init
  | live
  | broken
  | unlinkLast
  deriving DecidableEq, Repr

/-- Phases in which the object has a descriptor or a mapping. -/
def Phase.opened : Phase → Bool
  | .truncate | .chmod | .map | .init | .live | .broken | .unlinkLast => true
  | .absent | .unlinkFirst | .open => false

/-- Phases in which an owner has set the size. -/
def Phase.sized : Phase → Bool
  | .chmod | .map | .init | .live | .broken | .unlinkLast => true
  | .absent | .unlinkFirst | .open | .truncate => false

theorem Phase.opened_of_sized {p : Phase} (h : p.sized) : p.opened := by
  cases p with
  | absent | unlinkFirst | «open» | truncate => cases h
  | _ => rfl

/-- An object: `create` makes it the owner; `seg` and `openedAt` mean something
once it is open. -/
structure Obj where
  kind : Kind
  name : String
  create : Bool
  phase : Phase
  seg : Nat
  openedAt : Nat
  deriving DecidableEq, Repr

/-- A segment: its size, and the stamps of those who have stored to it. -/
structure Segment where
  size : Nat
  writtenBy : List Nat
  deriving DecidableEq, Repr

/-- What the names resolve to, the segments, the clock and the objects. -/
structure Shm where
  names : String → Option Nat
  segs : Nat → Segment
  clock : Nat
  objs : Nat → Obj

/-- A step of some process. -/
inductive Act
  | construct (k : Nat) (kind : Kind) (name : String) (create : Bool)
  /-- The next call, and whether it succeeds where it can fail. -/
  | call (k : Nat) (ok : Bool)
  /-- A store through the mapping. -/
  | write (k : Nat)
  /-- The destructor's `munmap`. -/
  | destroy (k : Nat)
  /-- The process ends without a destructor. -/
  | kill (k : Nat)
  deriving DecidableEq, Repr

namespace Shm

/-- An object is replaced. -/
def setObj (s : Shm) (k : Nat) (o : Obj) : Shm := { s with objs := Function.update s.objs k o }

/-- An object goes on to another phase. -/
def setPhase (s : Shm) (k : Nat) (phase : Phase) : Shm :=
  s.setObj k { s.objs k with phase := phase }

/-- A segment is replaced. -/
def setSeg (s : Shm) (g : Nat) (seg : Segment) : Shm :=
  { s with segs := Function.update s.segs g seg }

/-- What a name resolves to is replaced. -/
def bind (s : Shm) (name : String) (g : Option Nat) : Shm :=
  { s with names := Function.update s.names name g }

/-- `shm_unlink`, whose result nobody looks at: a name it fails on is left. -/
def unlink (s : Shm) (name : String) (ok : Bool) : Shm := if ok then s.bind name none else s

/-- The object `k` has opened the segment `g`. -/
def opened (s : Shm) (k g : Nat) : Shm :=
  let o := s.objs k
  { s.setObj k { o with
      phase := if o.create then .truncate else .map
      seg := g
      openedAt := s.clock } with
    clock := s.clock + 1 }

/-- `shm_open` with the flags of the object. -/
def shmOpen (s : Shm) (k : Nat) : Shm :=
  match s.names (s.objs k).name with
  | some g => s.opened k g
  | none =>
      if (s.objs k).create then
        ((s.setSeg s.clock { size := 0, writtenBy := [] }).bind (s.objs k).name
          (some s.clock)).opened k s.clock
      else s.setPhase k .absent

/-- The call an object makes in its phase. -/
def call (s : Shm) (k : Nat) (ok : Bool) : Option Shm :=
  let o := s.objs k
  match o.phase with
  | .absent | .live | .broken => none
  | .unlinkFirst => some ((s.unlink o.name ok).setPhase k .open)
  | .open => if ok then some (s.shmOpen k) else some (s.setPhase k .absent)
  | .truncate =>
      if ok then
        let seg := s.segs o.seg
        some ((s.setSeg o.seg { seg with size := o.kind.layoutSize }).setPhase k
          (match o.kind with
          | .mockDevice => .map
          | .telemetryHub => .chmod))
      else some (s.setPhase k .absent)
  | .chmod => if ok then some (s.setPhase k .map) else some (s.setPhase k .absent)
  | .map =>
      match o.kind with
      | .mockDevice => if ok then some (s.setPhase k .live) else some (s.setPhase k .absent)
      | .telemetryHub =>
          if o.create then
            -- The constructor of `PorthStats` at `MAP_FAILED` ends the process.
            if ok then some (s.setPhase k .init) else some (s.setPhase k .absent)
          else if ok then some (s.setPhase k .live)
          else some (s.setPhase k .broken)
  | .init =>
      let seg := s.segs o.seg
      some ((s.setSeg o.seg { seg with writtenBy := [] }).setPhase k .live)
  | .unlinkLast => some ((s.unlink o.name ok).setPhase k .absent)

/-- One step of some process. -/
def step (s : Shm) : Act → Option Shm
  | .construct k kind name create =>
      if (s.objs k).phase = .absent then
        some (s.setObj k
          { kind := kind
            name := name
            create := create
            phase := if create && kind == .mockDevice then .unlinkFirst else .open
            seg := 0
            openedAt := 0 })
      else none
  | .call k ok => s.call k ok
  | .write k =>
      if (s.objs k).phase = .live then
        let seg := s.segs (s.objs k).seg
        some (s.setSeg (s.objs k).seg
          { seg with writtenBy := (s.objs k).openedAt :: seg.writtenBy })
      else none
  | .destroy k =>
      if (s.objs k).phase = .live ∨ (s.objs k).phase = .broken then
        some (s.setPhase k (if (s.objs k).create then .unlinkLast else .absent))
      else none
  | .kill k => some (s.setPhase k .absent)

/-- Nobody is running; names may have been left behind, each of a segment of
its own, and whoever has stored to one had opened it. -/
structure Start (s : Shm) : Prop where
  objs : ∀ k, (s.objs k).phase = .absent
  bound : ∀ n g, s.names n = some g → g < s.clock
  distinct : ∀ n m g, s.names n = some g → s.names m = some g → n = m
  written : ∀ g, ∀ w ∈ (s.segs g).writtenBy, g ≤ w

/-- Any number of processes, one system call after the other. -/
def system : System Shm Act := .ofStep Start step

/-- A name gets a second owner only when the first is gone. -/
def OneOwner (s : Shm) : Act → Prop
  | .construct _ _ name true =>
      ∀ j, (s.objs j).phase ≠ .absent → (s.objs j).create = true → (s.objs j).name ≠ name
  | _ => True

/-- A chip's first `shm_unlink` takes the name away, if it is there. -/
def Unlinks (s : Shm) : Act → Prop
  | .call k ok =>
      (s.objs k).phase = .unlinkFirst → ok = true ∨ s.names (s.objs k).name = none
  | _ => True

/-- One owner at a time, and names are taken away before a chip opens them. -/
def Tidy (s : Shm) (act : Act) : Prop := s.OneOwner act ∧ s.Unlinks act

end Shm

@[simp] theorem Shm.objs_setPhase (s : Shm) (k j : Nat) (p : Phase) :
    (s.setPhase k p).objs j = if j = k then { s.objs k with phase := p } else s.objs j :=
  Function.update_apply ..

@[simp] theorem Shm.objs_unlink (s : Shm) (name : String) (ok : Bool) :
    (s.unlink name ok).objs = s.objs := by
  cases ok <;> rfl

@[simp] theorem Shm.names_unlink (s : Shm) (name : String) (ok : Bool) (n : String) :
    (s.unlink name ok).names n = if ok ∧ n = name then none else s.names n := by
  cases ok with
  | false => simp [Shm.unlink]
  | true => simp [Shm.unlink, Shm.bind, Function.update_apply]

/-! ## What holds as long as every name has one owner at a time -/

/-- A running owner. -/
def Shm.Owner (s : Shm) (k : Nat) : Prop :=
  (s.objs k).phase ≠ .absent ∧ (s.objs k).create = true

/-- Phases of owners alone. -/
def Phase.ownerOnly : Phase → Bool
  | .unlinkFirst | .truncate | .chmod | .init | .unlinkLast => true
  | .absent | .open | .map | .live | .broken => false

/-- How objects, names and segments stand to each other. -/
structure Inv (s : Shm) : Prop where
  bound : ∀ n g, s.names n = some g → g < s.clock
  distinct : ∀ n m g, s.names n = some g → s.names m = some g → n = m
  written : ∀ g, ∀ w ∈ (s.segs g).writtenBy, g ≤ w
  role : ∀ k, (s.objs k).phase.ownerOnly → (s.objs k).create = true
  stamped : ∀ k, (s.objs k).phase.opened →
    (s.objs k).seg ≤ (s.objs k).openedAt ∧ (s.objs k).openedAt < s.clock
  alone : ∀ j k, s.Owner j → s.Owner k → (s.objs j).name = (s.objs k).name → j = k
  named : ∀ k, s.Owner k → (s.objs k).phase.opened →
    s.names (s.objs k).name = some (s.objs k).seg
  later : ∀ k j, s.Owner k → (s.objs k).phase.opened → (s.objs j).phase.opened →
    (s.objs j).name = (s.objs k).name → (s.objs k).openedAt ≤ (s.objs j).openedAt →
    (s.objs j).seg = (s.objs k).seg
  sized : ∀ k, s.Owner k → (s.objs k).phase.sized →
    (s.segs (s.objs k).seg).size = (s.objs k).kind.layoutSize

namespace Inv

variable {s : Shm}

theorem start (h : s.Start) : Inv s where
  bound := h.bound
  distinct := h.distinct
  written := h.written
  role := fun k hk => by simp [h.objs k, Phase.ownerOnly] at hk
  stamped := fun k hk => by simp [h.objs k, Phase.opened] at hk
  alone := fun j _ hj => absurd (h.objs j) hj.1
  named := fun k hk => absurd (h.objs k) hk.1
  later := fun k _ hk => absurd (h.objs k) hk.1
  sized := fun k hk => absurd (h.objs k) hk.1

/-- An object goes on to a phase in which it has no more than before. -/
theorem setPhase (h : Inv s) {k : Nat} {p : Phase}
    (hactive : p = .absent ∨ (s.objs k).phase ≠ .absent)
    (hopened : p.opened → (s.objs k).phase.opened)
    (hsized : p.sized → (s.objs k).create → (s.objs k).phase.sized)
    (hrole : p.ownerOnly → (s.objs k).create = true) : Inv (s.setPhase k p) := by
  obtain ⟨hbound, hdistinct, hwritten, hrole', hstamped, halone, hnamed, hlater, hsized'⟩ := h
  simp only [Shm.Owner] at *
  refine ⟨hbound, hdistinct, hwritten, ?_, ?_, ?_, ?_, ?_, ?_⟩
  all_goals
    simp only [Shm.Owner, Shm.objs_setPhase]
    grind [Shm.setPhase, Shm.setObj]

/-- An owner takes its name away, or fails to. -/
theorem unlink (h : Inv s) {k : Nat} {p : Phase} (ok : Bool) (hk : s.Owner k)
    (hp : p = .absent ∨ p = .open) : Inv ((s.unlink (s.objs k).name ok).setPhase k p) := by
  cases ok with
  | false =>
      refine h.setPhase (.inr hk.1) ?_ ?_ ?_
      all_goals rcases hp with rfl | rfl
      all_goals exact nofun
  | true =>
      obtain ⟨hbound, hdistinct, hwritten, hrole, hstamped, halone, hnamed, hlater, hsized⟩ := h
      simp only [Shm.Owner] at *
      refine ⟨?_, ?_, hwritten, ?_, ?_, ?_, ?_, ?_, ?_⟩
      all_goals
        simp only [Shm.Owner, Shm.unlink, if_true, Shm.setPhase, Shm.setObj, Shm.bind,
          Function.update_apply]
        grind [Phase.opened, Phase.sized, Phase.ownerOnly]

/-- A name that is there is opened. -/
theorem opened (h : Inv s) {k g : Nat} (hphase : (s.objs k).phase = .open)
    (hname : s.names (s.objs k).name = some g) : Inv (s.opened k g) := by
  obtain ⟨hbound, hdistinct, hwritten, hrole, hstamped, halone, hnamed, hlater, hsized⟩ := h
  simp only [Shm.Owner] at *
  refine ⟨?_, ?_, ?_, ?_, ?_, ?_, ?_, ?_, ?_⟩
  all_goals
    simp only [Shm.Owner, Shm.opened, Shm.setObj, Function.update_apply]
    grind [Phase.opened, Phase.sized, Phase.ownerOnly]

/-- An owner creates its segment. -/
theorem created (h : Inv s) {k : Nat} (hphase : (s.objs k).phase = .open)
    (hcreate : (s.objs k).create = true) :
    Inv (((s.setSeg s.clock { size := 0, writtenBy := [] }).bind (s.objs k).name
      (some s.clock)).opened k s.clock) := by
  obtain ⟨hbound, hdistinct, hwritten, hrole, hstamped, halone, hnamed, hlater, hsized⟩ := h
  simp only [Shm.Owner] at *
  refine ⟨?_, ?_, ?_, ?_, ?_, ?_, ?_, ?_, ?_⟩
  all_goals
    simp only [Shm.Owner, Shm.opened, Shm.setObj, Shm.bind, Shm.setSeg, Function.update_apply]
    grind [Phase.opened, Phase.sized, Phase.ownerOnly, Phase.opened_of_sized]

/-- `ftruncate`. -/
theorem truncated (h : Inv s) {k : Nat} {p : Phase} (hk : s.Owner k)
    (hphase : (s.objs k).phase = .truncate) (hp : p = .map ∨ p = .chmod) :
    Inv ((s.setSeg (s.objs k).seg
      { s.segs (s.objs k).seg with size := (s.objs k).kind.layoutSize }).setPhase k p) := by
  obtain ⟨hbound, hdistinct, hwritten, hrole, hstamped, halone, hnamed, hlater, hsized⟩ := h
  rcases hp with rfl | rfl
  all_goals
    simp only [Shm.Owner] at *
    refine ⟨hbound, hdistinct, ?_, ?_, ?_, ?_, ?_, ?_, ?_⟩
    all_goals
      simp only [Shm.Owner, Shm.setPhase, Shm.setObj, Shm.setSeg, Function.update_apply]
      grind [Phase.opened, Phase.sized, Phase.ownerOnly, Phase.opened_of_sized]

/-- A segment is stored to, by objects that have it open. -/
theorem setWritten (h : Inv s) {g : Nat} {ws : List Nat} (hws : ∀ w ∈ ws, g ≤ w) :
    Inv (s.setSeg g { s.segs g with writtenBy := ws }) := by
  obtain ⟨hbound, hdistinct, hwritten, hrole, hstamped, halone, hnamed, hlater, hsized⟩ := h
  refine ⟨hbound, hdistinct, ?_, hrole, hstamped, halone, hnamed, hlater, ?_⟩
  all_goals
    simp only [Shm.setSeg, Function.update_apply]
    grind [Shm.Owner]

/-- A constructor begins. -/
theorem begun (h : Inv s) {k : Nat} {kind : Kind} {name : String} {create : Bool} {p : Phase}
    (hone : create = true →
      ∀ j, (s.objs j).phase ≠ .absent → (s.objs j).create = true → (s.objs j).name ≠ name)
    (hp : p = .open ∨ p = .unlinkFirst ∧ create = true) :
    Inv (s.setObj k
      { kind := kind, name := name, create := create, phase := p, seg := 0, openedAt := 0 }) := by
  obtain ⟨hbound, hdistinct, hwritten, hrole, hstamped, halone, hnamed, hlater, hsized⟩ := h
  rcases hp with rfl | ⟨rfl, rfl⟩
  all_goals
    simp only [Shm.Owner] at *
    refine ⟨hbound, hdistinct, hwritten, ?_, ?_, ?_, ?_, ?_, ?_⟩
    all_goals
      simp only [Shm.Owner, Shm.setObj, Function.update_apply]
      grind [Phase.opened, Phase.sized, Phase.ownerOnly]

/-- A constructor that throws, a process that dies. -/
theorem gone (h : Inv s) (k : Nat) : Inv (s.setPhase k .absent) :=
  h.setPhase (.inl rfl) nofun nofun nofun

/-- An object with its size set goes on. -/
theorem proceed (h : Inv s) {k : Nat} {p : Phase} (hsized : (s.objs k).phase.sized)
    (hrole : p.ownerOnly → (s.objs k).create = true) :
    Inv (s.setPhase k p) := by
  have hopened := Phase.opened_of_sized hsized
  refine h.setPhase (.inr ?_) (fun _ => hopened) (fun _ _ => hsized) hrole
  intro habsent
  rw [habsent] at hopened
  cases hopened

theorem shmOpen (h : Inv s) {k : Nat} (hphase : (s.objs k).phase = .open) :
    Inv (s.shmOpen k) := by
  unfold Shm.shmOpen
  split
  · next g hname => exact h.opened hphase hname
  · split
    · next hcreate => exact h.created hphase hcreate
    · exact h.gone k

theorem call (h : Inv s) {k : Nat} {ok : Bool} {t : Shm} (hst : s.call k ok = some t) :
    Inv t := by
  have hrole := h.role k
  unfold Shm.call at hst
  cases hphase : (s.objs k).phase with
  | absent | live | broken => simp only [hphase, reduceCtorEq] at hst
  | unlinkFirst =>
      simp only [hphase, Option.some.injEq] at hst hrole
      exact hst ▸ h.unlink ok ⟨by simp [hphase], hrole rfl⟩ (.inr rfl)
  | «open» =>
      simp only [hphase] at hst
      split at hst
      · cases hst
        exact h.shmOpen hphase
      · cases hst
        exact h.gone k
  | truncate =>
      simp only [hphase] at hst hrole
      split at hst
      · cases hst
        refine h.truncated ⟨by simp [hphase], hrole rfl⟩ hphase ?_
        cases (s.objs k).kind with
        | mockDevice => exact .inl rfl
        | telemetryHub => exact .inr rfl
      · cases hst
        exact h.gone k
  | chmod =>
      simp only [hphase] at hst
      have hsized : (s.objs k).phase.sized := by
        rw [hphase]
        rfl
      split at hst
      · cases hst
        exact h.proceed hsized nofun
      · cases hst
        exact h.gone k
  | map =>
      simp only [hphase] at hst
      have hsized : (s.objs k).phase.sized := by
        rw [hphase]
        rfl
      split at hst
      · split at hst
        · cases hst
          exact h.proceed hsized nofun
        · cases hst
          exact h.gone k
      · split at hst
        · next hcreate =>
            split at hst
            · cases hst
              exact h.proceed hsized fun _ => hcreate
            · cases hst
              exact h.gone k
        · split at hst
          · cases hst
            exact h.proceed hsized nofun
          · cases hst
            exact h.proceed hsized nofun
  | init =>
      simp only [hphase, Option.some.injEq] at hst
      have hsized : (s.objs k).phase.sized := by
        rw [hphase]
        rfl
      have hzeroed := h.setWritten (g := (s.objs k).seg) (List.forall_mem_nil _)
      exact hst ▸ hzeroed.proceed (k := k) hsized nofun
  | unlinkLast =>
      simp only [hphase, Option.some.injEq] at hst hrole
      exact hst ▸ h.unlink ok ⟨by simp [hphase], hrole rfl⟩ (.inl rfl)

theorem step (h : Inv s) {act : Act} {t : Shm} (hone : s.OneOwner act)
    (hst : s.step act = some t) : Inv t := by
  cases act with
  | construct k kind name create =>
      simp only [Shm.step] at hst
      obtain ⟨-, rfl⟩ := of_guard hst
      refine h.begun ?_ ?_
      · rintro rfl
        exact hone
      · cases create with
        | true =>
            cases kind with
            | mockDevice => exact .inr ⟨rfl, rfl⟩
            | telemetryHub => exact .inl rfl
        | false => exact .inl rfl
  | call k ok => exact h.call hst
  | write k =>
      simp only [Shm.step] at hst
      obtain ⟨hlive, rfl⟩ := of_guard hst
      refine h.setWritten ?_
      intro w hw
      rcases List.mem_cons.mp hw with rfl | hold
      · exact (h.stamped k (by rw [hlive]; rfl)).1
      · exact h.written _ w hold
  | destroy k =>
      simp only [Shm.step] at hst
      obtain ⟨hphase, rfl⟩ := of_guard hst
      have hsized : (s.objs k).phase.sized := by
        rcases hphase with hlive | hbroken
        · rw [hlive]
          rfl
        · rw [hbroken]
          rfl
      split
      · next hcreate => exact h.proceed hsized fun _ => hcreate
      · exact h.gone k
  | kill k =>
      cases hst
      exact h.gone k

end Inv

/-! ## Chips that have taken their name away -/

/-- What a chip opens, it creates: its name is gone when it comes to that. -/
structure Fresh (s : Shm) : Prop where
  unnamed : ∀ k, s.Owner k → (s.objs k).kind = .mockDevice → (s.objs k).phase = .open →
    s.names (s.objs k).name = none
  own : ∀ k, s.Owner k → (s.objs k).kind = .mockDevice → (s.objs k).phase.opened →
    (s.objs k).seg = (s.objs k).openedAt

namespace Fresh

variable {s t : Shm}

theorem start (h : s.Start) : Fresh s where
  unnamed := fun k hk => absurd (h.objs k) hk.1
  own := fun k hk => absurd (h.objs k) hk.1

theorem setPhase (h : Fresh s) {k : Nat} {p : Phase} (hopen : p ≠ .open)
    (hopened : p.opened → (s.objs k).phase.opened) : Fresh (s.setPhase k p) := by
  obtain ⟨hunnamed, hown⟩ := h
  simp only [Shm.Owner] at *
  constructor
  all_goals
    simp only [Shm.Owner, Shm.objs_setPhase]
    grind [Shm.setPhase, Shm.setObj, Phase.opened]

theorem setSeg (h : Fresh s) (g : Nat) (seg : Segment) : Fresh (s.setSeg g seg) :=
  ⟨h.unnamed, h.own⟩

/-- An unlink takes the name away, or finds that it is not there. -/
theorem unlink (h : Fresh s) {k : Nat} {p : Phase} {ok : Bool} (hp : p = .absent ∨ p = .open)
    (hgone : p = .open → ok = true ∨ s.names (s.objs k).name = none) :
    Fresh ((s.unlink (s.objs k).name ok).setPhase k p) := by
  obtain ⟨hunnamed, hown⟩ := h
  simp only [Shm.Owner] at *
  constructor
  all_goals
    simp only [Shm.Owner, Shm.setPhase, Shm.setObj, Shm.objs_unlink, Shm.names_unlink,
      Function.update_apply]
    grind [Phase.opened]

theorem shmOpen (h : Fresh s) (hinv : Inv s) {k : Nat} (hphase : (s.objs k).phase = .open) :
    Fresh (s.shmOpen k) := by
  have halone := hinv.alone
  unfold Shm.shmOpen
  split
  · next g hname =>
      -- The name is bound, so this is no chip's own.
      obtain ⟨hunnamed, hown⟩ := h
      simp only [Shm.Owner] at *
      constructor
      all_goals
        simp only [Shm.Owner, Shm.opened, Shm.setObj, Function.update_apply]
        grind [Phase.opened]
  · split
    · obtain ⟨hunnamed, hown⟩ := h
      simp only [Shm.Owner] at *
      constructor
      all_goals
        simp only [Shm.Owner, Shm.opened, Shm.setObj, Shm.bind, Shm.setSeg,
          Function.update_apply]
        grind [Phase.opened]
    · exact h.setPhase nofun nofun

theorem call (h : Fresh s) (hinv : Inv s) {k : Nat} {ok : Bool} (hunlinks : s.Unlinks (.call k ok))
    (hst : s.call k ok = some t) : Fresh t := by
  unfold Shm.call at hst
  cases hphase : (s.objs k).phase with
  | absent | live | broken => simp only [hphase, reduceCtorEq] at hst
  | unlinkFirst =>
      simp only [hphase, Option.some.injEq] at hst
      exact hst ▸ h.unlink (.inr rfl) fun _ => hunlinks hphase
  | «open» =>
      simp only [hphase] at hst
      split at hst
      · cases hst
        exact h.shmOpen hinv hphase
      · cases hst
        exact h.setPhase nofun nofun
  | unlinkLast =>
      simp only [hphase, Option.some.injEq] at hst
      exact hst ▸ h.unlink (.inl rfl) nofun
  | truncate | chmod | map | init =>
      have hopened : (s.objs k).phase.opened := by
        rw [hphase]
        rfl
      have hzeroed := fun seg => h.setSeg (s.objs k).seg seg
      simp only [hphase] at hst
      repeat' split at hst
      all_goals cases hst
      all_goals first
        | exact h.setPhase nofun fun _ => hopened
        | exact (hzeroed _).setPhase nofun fun _ => hopened

theorem step (h : Fresh s) (hinv : Inv s) {act : Act} (hunlinks : s.Unlinks act)
    (hst : s.step act = some t) : Fresh t := by
  cases act with
  | construct k kind name create =>
      simp only [Shm.step] at hst
      obtain ⟨-, rfl⟩ := of_guard hst
      obtain ⟨hunnamed, hown⟩ := h
      simp only [Shm.Owner] at *
      constructor
      all_goals
        simp only [Shm.Owner, Shm.setObj, Function.update_apply]
        grind [Phase.opened]
  | call k ok => exact h.call hinv hunlinks hst
  | write k =>
      simp only [Shm.step] at hst
      obtain ⟨-, rfl⟩ := of_guard hst
      exact h.setSeg _ _
  | destroy k =>
      simp only [Shm.step] at hst
      obtain ⟨hphase, rfl⟩ := of_guard hst
      refine h.setPhase ?_ fun _ => ?_
      · split
        · exact nofun
        · exact nofun
      · rcases hphase with hlive | hbroken
        · rw [hlive]
          rfl
        · rw [hbroken]
          rfl
  | kill k =>
      cases hst
      exact h.setPhase nofun nofun

end Fresh

/-! ## Sessions under one name -/

section Runs

variable {s t : Shm}

private theorem tidy_reachable (h : (Shm.system.restrict Shm.Tidy).Reachable s) :
    Inv s ∧ Fresh s := by
  refine h.invariant (I := fun s => Inv s ∧ Fresh s) ?_ ?_
  · exact fun _ hs => ⟨.start hs, .start hs⟩
  · rintro s act t ⟨hinv, hfresh⟩ ⟨⟨hone, hunlinks⟩, hst⟩
    exact ⟨hinv.step hone hst, hfresh.step hinv hunlinks hst⟩

/-- **Sessions do not mix**: any number of processes construct, use, destroy
and lose chips and dashboards in any order, every system call may fail and
every process may be killed between two of them, as long as a name gets a new
owner only when the old one is gone and a chip's first `shm_unlink` does not
fail on a name that is there.  Then a live owner's name resolves to the
segment it has mapped, at its full size, and an object of that name that has
opened it no earlier than the owner shares it.  Where the owner is a chip,
nobody who opened the name earlier does, and no register holds anything stored
by one of them: leftovers of a killed session under the name are gone. -/
theorem session_isolated (h : (Shm.system.restrict Shm.Tidy).Reachable s) {k j : Nat}
    (hk : (s.objs k).phase = .live) (hcreate : (s.objs k).create = true)
    (hj : (s.objs j).phase.opened = true) (hname : (s.objs j).name = (s.objs k).name) :
    s.names (s.objs k).name = some (s.objs k).seg ∧
      (s.segs (s.objs k).seg).size = (s.objs k).kind.layoutSize ∧
      ((s.objs k).openedAt ≤ (s.objs j).openedAt → (s.objs j).seg = (s.objs k).seg) ∧
      ((s.objs k).kind = .mockDevice →
        ((s.objs j).seg = (s.objs k).seg → (s.objs k).openedAt ≤ (s.objs j).openedAt) ∧
        ∀ w ∈ (s.segs (s.objs k).seg).writtenBy, (s.objs k).openedAt ≤ w) := by
  obtain ⟨hinv, hown⟩ := tidy_reachable h
  have howner : s.Owner k := ⟨by simp [hk], hcreate⟩
  have hopened : (s.objs k).phase.opened := by
    rw [hk]
    rfl
  refine ⟨hinv.named k howner hopened, hinv.sized k howner (by rw [hk]; rfl),
    hinv.later k j howner hopened hj hname, ?_⟩
  intro hchip
  have hfresh := hown.own k howner hchip hopened
  constructor
  · intro hseg
    rw [← hfresh, ← hseg]
    exact (hinv.stamped j hj).1
  · intro w hw
    rw [← hfresh]
    exact hinv.written _ w hw

/-- A killed session has left its name and its registers behind. -/
def leftover : Shm :=
  { names := fun n => if n = "/porth_dev0" then some 0 else none
    segs := fun g => { size := 512, writtenBy := [g] }
    clock := 1
    objs := fun _ =>
      { kind := .mockDevice
        name := ""
        create := false
        phase := .absent
        seg := 0
        openedAt := 0 } }

theorem leftover_start : leftover.Start where
  objs := fun _ => rfl
  bound := by
    intro n g h
    simp only [leftover, Option.ite_none_right_eq_some, Option.some.injEq] at h
    exact h.2 ▸ Nat.one_pos
  distinct := by
    intro n m g hn hm
    simp only [leftover, Option.ite_none_right_eq_some] at hn hm
    exact hn.1.trans hm.1.symm
  written := by
    intro g w hw
    exact Nat.le_of_eq (List.mem_singleton.mp hw).symm

/-- A chip is about to be powered on under the name. -/
def poweringOn : Shm :=
  leftover.setObj 0
    { kind := .mockDevice
      name := "/porth_dev0"
      create := true
      phase := .unlinkFirst
      seg := 0
      openedAt := 0 }

private theorem poweringOn_reachable : (Shm.system.restrict Shm.Tidy).Reachable poweringOn :=
  .step (.of_init leftover_start) (a := .construct 0 .mockDevice "/porth_dev0" true)
    ⟨⟨fun _ hj => absurd rfl hj, trivial⟩, rfl⟩

/-- It is, next to a client that still finds the old registers and one that
finds the new ones. -/
def powerOn : List Act :=
  [.construct 1 .mockDevice "/porth_dev0" false, .call 1 true, .call 1 true, .write 1,
    .call 0 true, .call 0 true, .call 0 true, .call 0 true,
    .construct 2 .mockDevice "/porth_dev0" false, .call 2 true, .write 1, .write 0]

theorem session_isolated_leftover :
    ∃ s : Shm, ((s.objs 1).seg = 0 ∧ (s.objs 0).seg = 2) ∧
      s.names (s.objs 0).name = some (s.objs 0).seg ∧
        (s.segs (s.objs 0).seg).size = (s.objs 0).kind.layoutSize ∧
        ((s.objs 0).openedAt ≤ (s.objs 2).openedAt → (s.objs 2).seg = (s.objs 0).seg) ∧
        ((s.objs 0).kind = .mockDevice →
          ((s.objs 2).seg = (s.objs 0).seg → (s.objs 0).openedAt ≤ (s.objs 2).openedAt) ∧
          ∀ w ∈ (s.segs (s.objs 0).seg).writtenBy, (s.objs 0).openedAt ≤ w) := by
  obtain ⟨s, hexec, hs⟩ := exec_of_any Shm.step poweringOn powerOn
    (fun s => ((s.objs 1).seg = 0 ∧ (s.objs 0).seg = 2) ∧ (s.objs 0).phase = .live ∧
      (s.objs 0).create = true ∧ (s.objs 2).phase.opened = true ∧
      (s.objs 2).name = (s.objs 0).name) (by decide)
  obtain ⟨hsegs, hlive, hcreate, hopened, hname⟩ := of_decide_eq_true hs
  have htidy : ∀ a ∈ powerOn, ∀ u, Shm.Tidy u a := by
    simp [powerOn, Shm.Tidy, Shm.OneOwner, Shm.Unlinks]
  have hrun : (Shm.system.restrict Shm.Tidy).Run poweringOn powerOn s :=
    (run_of_exec hexec).restrict_of_forall htidy
  exact ⟨s, hsegs, session_isolated (poweringOn_reachable.run hrun) hlive hcreate hopened hname⟩

end Runs

/-! ## A chip whose `shm_unlink` fails -/

/-- The object an act is of. -/
def Act.subject : Act → Nat
  | .construct k _ _ _ | .call k _ | .write k | .destroy k | .kill k => k

section Failing

variable {s t : Shm} {k : Nat}

/-- What others do leaves an object alone, and its name as well if it is an
owner. -/
structure Kept (k : Nat) (s t : Shm) : Prop where
  obj : t.objs k = s.objs k
  name : t.names (s.objs k).name = s.names (s.objs k).name

namespace Kept

theorem setPhase {j : Nat} (hjk : j ≠ k) (p : Phase) : Kept k s (s.setPhase j p) where
  obj := by rw [Shm.objs_setPhase, if_neg hjk.symm]
  name := rfl

theorem unlink {j : Nat} (hjk : j ≠ k) {p : Phase} {ok : Bool}
    (hname : (s.objs j).name ≠ (s.objs k).name) :
    Kept k s ((s.unlink (s.objs j).name ok).setPhase j p) where
  obj := by rw [Shm.objs_setPhase, if_neg hjk.symm, Shm.objs_unlink]
  name := by
    refine (Shm.names_unlink ..).trans (if_neg ?_)
    rintro ⟨-, heq⟩
    exact hname heq.symm

theorem shmOpen {j : Nat} (hjk : j ≠ k)
    (hname : (s.objs j).create = true → (s.objs j).name ≠ (s.objs k).name) :
    Kept k s (s.shmOpen j) := by
  unfold Shm.shmOpen
  split
  · exact ⟨Function.update_of_ne hjk.symm .., rfl⟩
  · split
    · next hcreate =>
        exact ⟨Function.update_of_ne hjk.symm ..,
          Function.update_of_ne (hname hcreate).symm ..⟩
    · exact setPhase hjk _

theorem call (hinv : Inv s) (hk : s.Owner k) {j : Nat} (hjk : j ≠ k) {ok : Bool}
    (hst : s.call j ok = some t) : Kept k s t := by
  -- Only owners bind or unbind, and a name has one.
  have hname : s.Owner j → (s.objs j).name ≠ (s.objs k).name :=
    fun hj heq => hjk (hinv.alone j k hj hk heq)
  have hrole := hinv.role j
  unfold Shm.call at hst
  cases hphase : (s.objs j).phase with
  | absent | live | broken => simp only [hphase, reduceCtorEq] at hst
  | unlinkFirst | unlinkLast =>
      simp only [hphase, Option.some.injEq] at hst hrole
      exact hst ▸ unlink hjk (hname ⟨by simp [hphase], hrole rfl⟩)
  | «open» =>
      simp only [hphase] at hst
      split at hst
      · cases hst
        exact shmOpen hjk fun hcreate => hname ⟨by simp [hphase], hcreate⟩
      · cases hst
        exact setPhase hjk _
  | truncate | chmod | map | init =>
      simp only [hphase] at hst
      repeat' split at hst
      all_goals cases hst
      all_goals exact ⟨Function.update_of_ne hjk.symm .., rfl⟩

theorem step (hinv : Inv s) (hk : s.Owner k) {act : Act} (hother : act.subject ≠ k)
    (hst : s.step act = some t) : Kept k s t := by
  cases act with
  | construct j kind name create =>
      simp only [Shm.step] at hst
      obtain ⟨-, rfl⟩ := of_guard hst
      exact ⟨Function.update_of_ne (Ne.symm hother) .., rfl⟩
  | call j ok => exact call hinv hk hother hst
  | write j =>
      simp only [Shm.step] at hst
      obtain ⟨-, rfl⟩ := of_guard hst
      exact ⟨rfl, rfl⟩
  | destroy j =>
      simp only [Shm.step] at hst
      obtain ⟨-, rfl⟩ := of_guard hst
      exact setPhase hother _
  | kill j =>
      cases hst
      exact setPhase hother _

theorem run (hinv : Inv s) (hk : s.Owner k) {acts : List Act}
    (hothers : ∀ act ∈ acts, act.subject ≠ k)
    (hrun : (Shm.system.restrict Shm.OneOwner).Run s acts t) : Inv t ∧ Kept k s t := by
  refine (hrun.restrict_labels hothers).preserves (I := fun t => Inv t ∧ Kept k s t) ?_
    ⟨hinv, rfl, rfl⟩
  rintro u act v ⟨hu, hobj, hname⟩ ⟨hother, hone, hst⟩
  have howner : u.Owner k := by
    rw [Shm.Owner, hobj]
    exact hk
  obtain ⟨hobj', hname'⟩ := step hu howner hother hst
  rw [hobj] at hname'
  exact ⟨hu.step hone hst, hobj'.trans hobj, hname'.trans hname⟩

end Kept

/-- An owner opens what its name resolves to, or else a segment of its own. -/
theorem shmOpen_seg (hcreate : (s.objs k).create = true) :
    ((s.shmOpen k).objs k).seg = (s.names (s.objs k).name).getD s.clock ∧
      ((s.shmOpen k).objs k).openedAt = s.clock := by
  unfold Shm.shmOpen
  split
  · next g hname => simp [Shm.opened, Shm.setObj, hname]
  · next hname =>
      rw [if_pos hcreate]
      simp [Shm.opened, Shm.setObj, Shm.setSeg, Shm.bind, hname]

/-- After its first `shm_unlink` a chip is about to open, and its name is what
the call has left of it. -/
theorem step_unlinkFirst {ok : Bool} (hphase : (s.objs k).phase = .unlinkFirst)
    (hst : s.step (.call k ok) = some t) :
    t.objs k = { s.objs k with phase := .open } ∧
      t.names (s.objs k).name = if ok then none else s.names (s.objs k).name := by
  simp only [Shm.step, Shm.call, hphase, Option.some.injEq] at hst
  subst hst
  constructor
  · simp
  · simp [Shm.setPhase, Shm.setObj]

theorem step_open (hphase : (s.objs k).phase = .open) (hst : s.step (.call k true) = some t) :
    t = s.shmOpen k := by
  simp only [Shm.step, Shm.call, hphase, if_true, Option.some.injEq] at hst
  exact hst.symm

/-- **A failing `shm_unlink` goes unnoticed**: a chip calls `shm_unlink`, others
do what they like while its name has no other owner, and it opens.  The segment
is its own exactly if the call succeeded or there was nothing to unlink.  If it
failed on a leftover, the chip opens that. -/
theorem own_segment_iff {u v : Shm} {ok : Bool} {acts : List Act}
    (h : (Shm.system.restrict Shm.OneOwner).Reachable s)
    (hphase : (s.objs k).phase = .unlinkFirst) (hunlink : s.step (.call k ok) = some t)
    (hothers : ∀ act ∈ acts, act.subject ≠ k)
    (hrun : (Shm.system.restrict Shm.OneOwner).Run t acts u)
    (hopen : u.step (.call k true) = some v) :
    ((v.objs k).seg = (v.objs k).openedAt ↔ ok = true ∨ s.names (s.objs k).name = none) ∧
      (ok = false → ∀ g, s.names (s.objs k).name = some g → (v.objs k).seg = g) := by
  have hinv : Inv s := h.invariant (fun _ => Inv.start) fun _ _ _ hs hst => hs.step hst.1 hst.2
  have hcreate : (s.objs k).create = true := hinv.role k (by rw [hphase]; rfl)
  obtain ⟨hobj, hname⟩ := step_unlinkFirst hphase hunlink
  -- What the chip finds is what its `shm_unlink` has left.
  obtain ⟨hinv', hkept⟩ := Kept.run (hinv.call hunlink) (k := k)
    ⟨by simp [hobj], by simpa [hobj]⟩ hothers hrun
  have hobj' : u.objs k = { s.objs k with phase := .open } := hkept.obj.trans hobj
  have hname' : u.names (u.objs k).name = if ok then none else s.names (s.objs k).name := by
    rw [hkept.obj, hkept.name, hobj, hname]
  obtain rfl := step_open (by rw [hobj']) hopen
  obtain ⟨hseg, hstamp⟩ := shmOpen_seg (s := u) (k := k) (by rwa [hobj'])
  rw [hname'] at hseg
  rw [hstamp, hseg]
  cases ok with
  | true => simp
  | false =>
      cases hleft : s.names (s.objs k).name with
      | none => simp
      | some g =>
          have hold : g < u.clock := hinv'.bound _ g (by simpa [hleft] using hname')
          simpa using Nat.ne_of_lt hold

/-- A client that finds the leftover stores to it. -/
def clientIn : List Act :=
  [.construct 1 .mockDevice "/porth_dev0" false, .call 1 true, .call 1 true, .write 1]

theorem own_segment_iff_leftover :
    ∃ v : Shm, ((v.segs (v.objs 0).seg).writtenBy = [1, 0] ∧ (v.objs 0).openedAt = 2) ∧
      ((v.objs 0).seg = (v.objs 0).openedAt ↔
        false = true ∨ poweringOn.names (poweringOn.objs 0).name = none) ∧
      (false = false → ∀ g, poweringOn.names (poweringOn.objs 0).name = some g →
        (v.objs 0).seg = g) := by
  have hreach : (Shm.system.restrict Shm.OneOwner).Reachable poweringOn :=
    .step (.of_init leftover_start) (a := .construct 0 .mockDevice "/porth_dev0" true)
      ⟨fun _ hj => absurd rfl hj, rfl⟩
  obtain ⟨u, hexec, hu⟩ := exec_of_any Shm.step (poweringOn.setPhase 0 .open) clientIn
    (fun u => (u.step (.call 0 true)).any fun v =>
      (v.segs (v.objs 0).seg).writtenBy = [1, 0] ∧ (v.objs 0).openedAt = 2) (by decide)
  obtain ⟨v, hopen, hv⟩ := (Option.any_eq_true ..).mp hu
  have hclients : ∀ a ∈ clientIn, ∀ w, Shm.OneOwner w a := by simp [clientIn, Shm.OneOwner]
  have hrun : (Shm.system.restrict Shm.OneOwner).Run (poweringOn.setPhase 0 .open) clientIn u :=
    (run_of_exec hexec).restrict_of_forall hclients
  have hunlink : poweringOn.step (.call 0 false) = some (poweringOn.setPhase 0 .open) := rfl
  exact ⟨v, of_decide_eq_true hv, own_segment_iff hreach rfl hunlink (by decide) hrun hopen⟩

end Failing

end PorthCore.Ports.SharedMemory
