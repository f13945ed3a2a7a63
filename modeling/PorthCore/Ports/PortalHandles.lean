import Mathlib.Data.List.Nodup
import Mathlib.Logic.Function.Basic
import PorthCore.Verified.Transition

/-!
# Who releases what a `PorthNetworkPortal` has acquired

A portal holds four raw handles: its UMEM area from the constructor on, an
`xsk_umem`, a socket and a BPF object as they are asked for.  Its destructor
releases the ones that are not null.  Copies are deleted, and the two moves
are defaulted: they copy the handles and leave the source as it was.

A run of the machine is a sequence of operations on objects with names; what
was acquired and what was released is written down.  Without moves everything
is released once, and with any move it is not (`single_release_iff`): a move
construction leaves more areas to be released than were acquired, a move
assignment forgets the area of its target.
-/

namespace PorthCore.Ports.PortalHandles

open PorthCore.Verified.Transition

/-! ## The machine -/

/-- The handles of a portal, by what they refer to. -/
inductive Handle
  | xsk
  | umem
  | bpfObj
  | umemArea
  deriving DecidableEq, Repr

/-- What a handle that is not null refers to; no two acquisitions share an
identity. -/
structure Resource where
  kind : Handle
  id : Nat
  deriving DecidableEq, Repr

/-- The four members; `none` is null. -/
abbrev Handles := Handle → Option Nat

/-- A handle, unless it is null. -/
def resource (h : Handles) (kind : Handle) : Option Resource :=
  (h kind).map fun id => { kind := kind, id := id }

/-- What the destructor releases, in its order. -/
def owned (h : Handles) : List Resource :=
  [Handle.xsk, Handle.umem, Handle.bpfObj, Handle.umemArea].filterMap (resource h)

/-- The live portals and their handles, and the books: what was acquired, what
was released, and which call was made for which area. -/
structure Portals where
  live : List Nat
  handles : Nat → Handles
  next : Nat
  acquired : List Resource
  released : List Resource
  called : List (Handle × Nat)

/-- An operation on portals by name, with the outcome of the library call it
makes. -/
inductive PortalOp
  | construct (portal : Nat) (ok : Bool)
  | initializeUmem (portal : Nat) (ok : Bool)
  | createSocket (portal : Nat) (ok : Bool)
  | loadKernelProgram (portal : Nat) (ok : Bool)
  | moveConstruct (portal source : Nat)
  | moveAssign (portal source : Nat)
  | destroy (portal : Nat)
  deriving DecidableEq, Repr

/-- The two moves. -/
def PortalOp.isMove : PortalOp → Bool
  | .moveConstruct _ _ | .moveAssign _ _ => true
  | _ => false

namespace Portals

/-- No portals yet. -/
def empty : Portals :=
  { live := []
    handles := fun _ _ => none
    next := 0
    acquired := []
    released := []
    called := [] }

/-- Writes one member of one portal. -/
def setHandle (s : Portals) (portal : Nat) (kind : Handle) (value : Option Nat) : Portals :=
  { s with
    handles := Function.update s.handles portal
      (Function.update (s.handles portal) kind value) }

/-- The library hands out a new resource. -/
def acquire (s : Portals) (portal : Nat) (kind : Handle) : Portals :=
  { s.setHandle portal kind (some s.next) with
    next := s.next + 1
    acquired := s.acquired ++ [{ kind := kind, id := s.next }] }

/-- Each call is made once per UMEM area. -/
def mayCall (s : Portals) (portal : Nat) (kind : Handle) : Bool :=
  decide (portal ∈ s.live) &&
    ((s.handles portal .umemArea).toList.all fun area => decide ((kind, area) ∉ s.called))

/-- Notes that a call was made. -/
def note (s : Portals) (portal : Nat) (kind : Handle) : Portals :=
  { s with
    called := s.called ++ (s.handles portal .umemArea).toList.map fun area => (kind, area) }

/-- `PorthNetworkPortal(ifname)`; where the allocation fails there is no
object. -/
def afterConstruct (s : Portals) (portal : Nat) (ok : Bool) : Portals :=
  if ok then
    { s with
      live := portal :: s.live
      handles := Function.update s.handles portal fun _ => none }.acquire portal .umemArea
  else s

/-- `initialize_umem`; on failure it throws and leaves `m_umem`. -/
def afterInitializeUmem (s : Portals) (portal : Nat) (ok : Bool) : Portals :=
  if ok then (s.note portal .umem).acquire portal .umem else s.note portal .umem

/-- `create_socket`; on failure it throws and leaves `m_xsk`. -/
def afterCreateSocket (s : Portals) (portal : Nat) (ok : Bool) : Portals :=
  if ok then (s.note portal .xsk).acquire portal .xsk else s.note portal .xsk

/-- `load_kernel_program`, which assigns what `bpf_object__open_file` returns,
null or not. -/
def afterLoadKernelProgram (s : Portals) (portal : Nat) (ok : Bool) : Portals :=
  if ok then (s.note portal .bpfObj).acquire portal .bpfObj
  else (s.note portal .bpfObj).setHandle portal .bpfObj none

/-- The defaulted moves: member by member. -/
def copyHandles (s : Portals) (portal source : Nat) : Portals :=
  { s with handles := Function.update s.handles portal (s.handles source) }

/-- `~PorthNetworkPortal`. -/
def afterDestroy (s : Portals) (portal : Nat) : Portals :=
  { s with
    live := s.live.erase portal
    released := s.released ++ owned (s.handles portal) }

/-- One operation, where it is possible: on live objects, into a name that is
free, between distinct objects. -/
def apply (s : Portals) : PortalOp → Option Portals
  | .construct portal ok =>
      if portal ∈ s.live then none else some (s.afterConstruct portal ok)
  | .initializeUmem portal ok =>
      if s.mayCall portal .umem then some (s.afterInitializeUmem portal ok) else none
  | .createSocket portal ok =>
      if s.mayCall portal .xsk then some (s.afterCreateSocket portal ok) else none
  | .loadKernelProgram portal ok =>
      if s.mayCall portal .bpfObj then some (s.afterLoadKernelProgram portal ok) else none
  | .moveConstruct portal source =>
      if source ∈ s.live ∧ portal ∉ s.live then
        some { s.copyHandles portal source with live := portal :: s.live }
      else none
  | .moveAssign portal source =>
      if source ∈ s.live ∧ portal ∈ s.live ∧ portal ≠ source then
        some (s.copyHandles portal source)
      else none
  | .destroy portal => if portal ∈ s.live then some (s.afterDestroy portal) else none

/-- Any sequence of operations on portal objects. -/
def system : System Portals PortalOp := System.ofStep (fun s => s = empty) apply

end Portals

/-! ## What an operation can do -/

/-- The call an operation makes on an object, by the handle it writes. -/
def PortalOp.call : PortalOp → Option (Nat × Handle)
  | .initializeUmem portal _ => some (portal, .umem)
  | .createSocket portal _ => some (portal, .xsk)
  | .loadKernelProgram portal _ => some (portal, .bpfObj)
  | _ => none

theorem PortalOp.call_eq_some {op : PortalOp} {portal : Nat} {kind : Handle}
    (h : op.call = some (portal, kind)) : kind ≠ .umemArea ∧ op.isMove = false := by
  cases op with
  | initializeUmem | createSocket | loadKernelProgram =>
      cases h
      exact ⟨by decide, rfl⟩
  | construct | moveConstruct | moveAssign | destroy => cases h

namespace Portals

/-- The outcomes of an operation. -/
inductive Outcome (s : Portals) : PortalOp → Portals → Prop
  | created {portal : Nat} : portal ∉ s.live →
      Outcome s (.construct portal true) (s.afterConstruct portal true)
  | notCreated {portal : Nat} : Outcome s (.construct portal false) s
  | acquired {op : PortalOp} {portal : Nat} {kind : Handle} : op.call = some (portal, kind) →
      s.mayCall portal kind = true → Outcome s op ((s.note portal kind).acquire portal kind)
  /-- The call fails and throws. -/
  | failed {op : PortalOp} {portal : Nat} {kind : Handle} : op.call = some (portal, kind) →
      s.mayCall portal kind = true → Outcome s op (s.note portal kind)
  /-- The call fails and its result is assigned. -/
  | assignedNull {op : PortalOp} {portal : Nat} {kind : Handle} :
      op.call = some (portal, kind) → s.mayCall portal kind = true →
        Outcome s op ((s.note portal kind).setHandle portal kind none)
  | moveConstructed {portal source : Nat} : source ∈ s.live → portal ∉ s.live →
      Outcome s (.moveConstruct portal source)
        { s.copyHandles portal source with live := portal :: s.live }
  | moveAssigned {portal source : Nat} : source ∈ s.live → portal ∈ s.live →
      portal ≠ source → Outcome s (.moveAssign portal source) (s.copyHandles portal source)
  | destroyed {portal : Nat} : portal ∈ s.live →
      Outcome s (.destroy portal) (s.afterDestroy portal)

theorem outcome_of_apply {s t : Portals} {op : PortalOp} (h : s.apply op = some t) :
    Outcome s op t := by
  cases op with
  | construct portal ok =>
      obtain ⟨hnew, heq⟩ := Option.ite_none_left_eq_some.mp h
      cases heq
      cases ok with
      | true => exact .created hnew
      | false => exact .notCreated
  | initializeUmem portal ok =>
      obtain ⟨hmay, rfl⟩ := System.of_guard h
      cases ok with
      | true => exact .acquired rfl hmay
      | false => exact .failed rfl hmay
  | createSocket portal ok =>
      obtain ⟨hmay, rfl⟩ := System.of_guard h
      cases ok with
      | true => exact .acquired rfl hmay
      | false => exact .failed rfl hmay
  | loadKernelProgram portal ok =>
      obtain ⟨hmay, rfl⟩ := System.of_guard h
      cases ok with
      | true => exact .acquired rfl hmay
      | false => exact .assignedNull rfl hmay
  | moveConstruct portal source =>
      obtain ⟨⟨hsource, hnew⟩, rfl⟩ := System.of_guard h
      exact .moveConstructed hsource hnew
  | moveAssign portal source =>
      obtain ⟨⟨hsource, hportal, hne⟩, rfl⟩ := System.of_guard h
      exact .moveAssigned hsource hportal hne
  | destroy portal =>
      obtain ⟨hportal, rfl⟩ := System.of_guard h
      exact .destroyed hportal

/-! ## What is owned -/

theorem mem_owned {h : Handles} {r : Resource} : r ∈ owned h ↔ h r.kind = some r.id := by
  obtain ⟨kind, id⟩ := r
  cases kind <;> simp [owned, resource, List.mem_filterMap, Option.map_eq_some_iff]

theorem owned_nodup (h : Handles) : (owned h).Nodup := by
  refine List.Nodup.filterMap ?_ (by decide)
  intro a b r ha hb
  obtain ⟨i, -, rfl⟩ := Option.map_eq_some_iff.mp ha
  obtain ⟨j, -, heq⟩ := Option.map_eq_some_iff.mp hb
  exact (congrArg Resource.kind heq).symm

private theorem owned_null : owned (fun _ => none) = [] := rfl

theorem mem_owned_update {h : Handles} {kind : Handle} {id : Nat} {r : Resource}
    (hr : r ∈ owned (Function.update h kind (some id))) :
    r ∈ owned h ∨ r = { kind := kind, id := id } := by
  rw [mem_owned] at hr ⊢
  by_cases hkind : r.kind = kind
  · rw [hkind, Function.update_self] at hr
    obtain ⟨kind', id'⟩ := r
    cases hkind
    cases hr
    exact .inr rfl
  · rw [Function.update_of_ne hkind] at hr
    exact .inl hr

/-- Writing null leaves no new resource. -/
theorem mem_owned_update_none {h : Handles} {kind : Handle} {r : Resource}
    (hr : r ∈ owned (Function.update h kind none)) : r ∈ owned h := by
  rw [mem_owned] at hr ⊢
  by_cases hkind : r.kind = kind
  · rw [hkind, Function.update_self] at hr
    cases hr
  · rwa [Function.update_of_ne hkind] at hr

/-- Writing a handle that was null adds its resource. -/
theorem owned_update {h : Handles} {kind : Handle} (hnull : h kind = none) (id : Nat) :
    (owned (Function.update h kind (some id))).Perm
      ({ kind := kind, id := id } :: owned h) := by
  have hnew : ({ kind := kind, id := id } : Resource) ∉ owned h := by
    rw [mem_owned, hnull]
    intro h
    cases h
  refine (List.perm_ext_iff_of_nodup (owned_nodup _) ((owned_nodup h).cons hnew)).mpr ?_
  intro r
  rw [List.mem_cons]
  constructor
  · exact fun hr => (mem_owned_update hr).symm
  · rintro (rfl | hold)
    · exact mem_owned.mpr (Function.update_self kind _ h)
    · have hkind : r.kind ≠ kind := by
        intro hkind
        rw [mem_owned, hkind, hnull] at hold
        cases hold
      rw [mem_owned, Function.update_of_ne hkind]
      exact mem_owned.mp hold

/-- What the live portals would release. -/
def held (s : Portals) : List Resource :=
  s.live.flatMap fun portal => owned (s.handles portal)

/-- What the other live portals would release. -/
def heldBeside (s : Portals) (portal : Nat) : List Resource :=
  (s.live.erase portal).flatMap fun other => owned (s.handles other)

theorem mem_held {s : Portals} {r : Resource} :
    r ∈ s.held ↔ ∃ portal ∈ s.live, r ∈ owned (s.handles portal) := List.mem_flatMap

theorem held_split {s : Portals} {portal : Nat} (hlive : portal ∈ s.live) :
    s.held.Perm (owned (s.handles portal) ++ s.heldBeside portal) :=
  (List.perm_cons_erase hlive).flatMap_right _

/-- The handles of one portal do not count beside it. -/
theorem heldBeside_update {s : Portals} {portal : Nat} (hnodup : s.live.Nodup) (h : Handles) :
    { s with handles := Function.update s.handles portal h }.heldBeside portal =
      s.heldBeside portal := by
  refine List.flatMap_congr fun other hother => ?_
  have hne : other ≠ portal := by
    rintro rfl
    exact hnodup.not_mem_erase hother
  exact congrArg owned (Function.update_of_ne hne _ _)

/-! ## Every operation -/

theorem mem_live_of_mayCall {s : Portals} {portal : Nat} {kind : Handle}
    (h : s.mayCall portal kind = true) : portal ∈ s.live :=
  of_decide_eq_true (Bool.and_eq_true_iff.mp h).1

/-- A live portal has an area. -/
def HasAreas (s : Portals) : Prop :=
  ∀ portal ∈ s.live, ∃ area, s.handles portal .umemArea = some area

/-- The handles of one portal, live before or not, are overwritten by `h`. -/
structure Overwrites (s t : Portals) (portal : Nat) (h : Handles) : Prop where
  live : ∀ other ∈ t.live, other = portal ∨ other ∈ s.live
  handles : t.handles = Function.update s.handles portal h

namespace Overwrites

variable {s t : Portals} {portal : Nat} {h : Handles}

theorem mem_held (hw : Overwrites s t portal h) {r : Resource} (hr : r ∈ t.held) :
    r ∈ s.held ∨ r ∈ owned h := by
  obtain ⟨other, hother, hr⟩ := Portals.mem_held.mp hr
  rw [hw.handles] at hr
  by_cases heq : other = portal
  · rw [heq, Function.update_self] at hr
    exact .inr hr
  · rw [Function.update_of_ne heq] at hr
    exact .inl (Portals.mem_held.mpr ⟨other, (hw.live other hother).resolve_left heq, hr⟩)

theorem hasAreas (hw : Overwrites s t portal h) (hs : s.HasAreas)
    (harea : ∃ area, h .umemArea = some area) : t.HasAreas := by
  intro other hother
  rw [hw.handles]
  by_cases heq : other = portal
  · rw [heq, Function.update_self]
    exact harea
  · rw [Function.update_of_ne heq]
    exact hs other ((hw.live other hother).resolve_left heq)

end Overwrites

theorem overwrites_afterConstruct {s : Portals} {portal : Nat} :
    Overwrites s (s.afterConstruct portal true) portal
      (Function.update (fun _ => none) .umemArea (some s.next)) where
  live := fun _ hother => List.mem_cons.mp hother
  handles := by
    show Function.update (Function.update s.handles portal _) portal
      (Function.update (Function.update s.handles portal _ portal) _ _) = _
    rw [Function.update_idem, Function.update_self]

theorem overwrites_setHandle {s t : Portals} {portal : Nat} {kind : Handle}
    {value : Option Nat} (hlive : t.live = s.live)
    (hhandles : t.handles = (s.setHandle portal kind value).handles) :
    Overwrites s t portal (Function.update (s.handles portal) kind value) where
  live := fun _ hother => .inr (hlive ▸ hother)
  handles := hhandles

/-- What an operation does to the books: nothing is held that was not held
before or is new, and nothing is released that was not held. -/
structure Change (s t : Portals) : Prop where
  area : s.HasAreas → t.HasAreas
  held : ∀ r ∈ t.held, r ∈ s.held ∨ r.id = s.next ∧ r ∈ t.acquired
  released : ∀ r ∈ t.released, r ∈ s.released ∨ r ∈ s.held
  acquired : t.acquired = s.acquired ∧ t.next = s.next ∨
    ∃ kind, t.acquired = s.acquired ++ [{ kind := kind, id := s.next }] ∧ t.next = s.next + 1

/-- Overwritten with handles that were held before. -/
theorem Overwrites.change {s t : Portals} {portal : Nat} {h : Handles}
    (hw : Overwrites s t portal h)
    (harea : s.HasAreas → ∃ area, h .umemArea = some area) (hold : ∀ r ∈ owned h, r ∈ s.held)
    (hreleased : t.released = s.released)
    (hacquired : t.acquired = s.acquired ∧ t.next = s.next) : Change s t where
  area := fun hs => hw.hasAreas hs (harea hs)
  held := fun r hr => .inl ((hw.mem_held hr).elim id (hold r))
  released := fun _ hr => .inl (hreleased ▸ hr)
  acquired := .inl hacquired

/-- Overwritten with one new handle among those held before. -/
theorem Overwrites.change_acquire {s t : Portals} {portal : Nat} {h : Handles} {kind : Handle}
    (hw : Overwrites s t portal h)
    (harea : s.HasAreas → ∃ area, h .umemArea = some area)
    (hnew : ∀ r ∈ owned h, r ∈ s.held ∨ r = { kind := kind, id := s.next })
    (hreleased : t.released = s.released)
    (hacquired : t.acquired = s.acquired ++ [{ kind := kind, id := s.next }])
    (hnext : t.next = s.next + 1) : Change s t where
  area := fun hs => hw.hasAreas hs (harea hs)
  held := by
    intro r hr
    rcases (hw.mem_held hr).elim .inl (hnew r) with hold | rfl
    · exact .inl hold
    · rw [hacquired]
      exact .inr ⟨rfl, List.mem_append_right _ (List.mem_singleton_self _)⟩
  released := fun _ hr => .inl (hreleased ▸ hr)
  acquired := .inr ⟨kind, hacquired, hnext⟩

/-- Where only the calls were noted. -/
theorem Change.of_same {s t : Portals} (hlive : t.live = s.live)
    (hhandles : t.handles = s.handles) (hreleased : t.released = s.released)
    (hacquired : t.acquired = s.acquired ∧ t.next = s.next) : Change s t := by
  have hheld : t.held = s.held := by
    rw [Portals.held, hlive, hhandles]
    rfl
  exact
    { area := by
        unfold HasAreas
        rw [hlive, hhandles]
        exact id
      held := fun r hr => .inl (hheld ▸ hr)
      released := fun r hr => .inl (hreleased ▸ hr)
      acquired := .inl hacquired }

theorem Outcome.change {s t : Portals} {op : PortalOp} (h : Outcome s op t) : Change s t := by
  cases h with
  | created hnew =>
      refine overwrites_afterConstruct.change_acquire (fun _ => ⟨_, Function.update_self _ _ _⟩)
        (fun r hr => ?_) rfl rfl rfl
      rcases mem_owned_update hr with hnull | hfresh
      · cases hnull
      · exact .inr hfresh
  | notCreated => exact .of_same rfl rfl rfl ⟨rfl, rfl⟩
  | @acquired _ portal kind hcall hmay =>
      have hlive := mem_live_of_mayCall hmay
      have hw : Overwrites s ((s.note portal kind).acquire portal kind) portal _ :=
        overwrites_setHandle rfl rfl
      refine hw.change_acquire (fun hs => ?_) (fun r hr => ?_) rfl rfl rfl
      · rw [Function.update_of_ne (PortalOp.call_eq_some hcall).1.symm]
        exact hs portal hlive
      · exact (mem_owned_update hr).imp_left fun hold => mem_held.mpr ⟨portal, hlive, hold⟩
  | failed => exact .of_same rfl rfl rfl ⟨rfl, rfl⟩
  | @assignedNull _ portal kind hcall hmay =>
      have hlive := mem_live_of_mayCall hmay
      have hw : Overwrites s ((s.note portal kind).setHandle portal kind none) portal _ :=
        overwrites_setHandle rfl rfl
      refine hw.change (fun hs => ?_) (fun r hr => ?_) rfl ⟨rfl, rfl⟩
      · rw [Function.update_of_ne (PortalOp.call_eq_some hcall).1.symm]
        exact hs portal hlive
      · exact mem_held.mpr ⟨portal, hlive, mem_owned_update_none hr⟩
  | @moveConstructed portal source hsource hnew =>
      have hw : Overwrites s { s.copyHandles portal source with live := portal :: s.live }
          portal (s.handles source) :=
        { live := fun _ hother => List.mem_cons.mp hother
          handles := rfl }
      exact hw.change (fun hs => hs source hsource)
        (fun r hr => mem_held.mpr ⟨source, hsource, hr⟩) rfl ⟨rfl, rfl⟩
  | @moveAssigned portal source hsource hportal hne =>
      have hw : Overwrites s (s.copyHandles portal source) portal (s.handles source) :=
        { live := fun _ hother => .inr hother
          handles := rfl }
      exact hw.change (fun hs => hs source hsource)
        (fun r hr => mem_held.mpr ⟨source, hsource, hr⟩) rfl ⟨rfl, rfl⟩
  | @destroyed portal hportal =>
      exact
        { area := fun hs other hother => hs other (List.mem_of_mem_erase hother)
          held := by
            intro r hr
            obtain ⟨other, hother, hr⟩ := mem_held.mp hr
            exact .inl (mem_held.mpr ⟨other, List.mem_of_mem_erase hother, hr⟩)
          released := by
            intro r hr
            rcases List.mem_append.mp hr with hold | hnow
            · exact .inl hold
            · exact .inr (mem_held.mpr ⟨portal, hportal, hnow⟩)
          acquired := .inl ⟨rfl, rfl⟩ }

theorem Change.acquired_le {s t : Portals} (h : Change s t) {r : Resource}
    (hr : r ∈ s.acquired) : r ∈ t.acquired := by
  rcases h.acquired with ⟨hacquired, -⟩ | ⟨kind, hacquired, -⟩
  · rwa [hacquired]
  · rw [hacquired]
    exact List.mem_append_left _ hr

/-! ## What holds along every run -/

/-- A live portal has an area, identities are fresh, and what is held or
released was acquired. -/
structure Sound (s : Portals) : Prop where
  area : s.HasAreas
  fresh : ∀ r ∈ s.acquired, r.id < s.next
  distinct : s.acquired.Nodup
  held : ∀ r ∈ s.held, r ∈ s.acquired
  released : ∀ r ∈ s.released, r ∈ s.acquired

theorem sound_empty : Sound empty where
  area := fun portal hportal => by cases hportal
  fresh := fun r hr => by cases hr
  distinct := List.nodup_nil
  held := fun r hr => by cases hr
  released := fun r hr => by cases hr

theorem Sound.step {s t : Portals} (h : Sound s) (hc : Change s t) : Sound t where
  area := hc.area h.area
  fresh := by
    intro r hr
    rcases hc.acquired with ⟨hacquired, hnext⟩ | ⟨kind, hacquired, hnext⟩
    · rw [hacquired] at hr
      rw [hnext]
      exact h.fresh r hr
    · rw [hacquired, List.mem_append, List.mem_singleton] at hr
      rw [hnext]
      rcases hr with hold | rfl
      · exact Nat.lt_succ_of_lt (h.fresh r hold)
      · exact Nat.lt_succ_self _
  distinct := by
    rcases hc.acquired with ⟨hacquired, -⟩ | ⟨kind, hacquired, -⟩
    · rw [hacquired]
      exact h.distinct
    · rw [hacquired]
      refine h.distinct.append (List.nodup_singleton _) fun r hr hnew => ?_
      rw [List.mem_singleton.mp hnew] at hr
      exact Nat.lt_irrefl _ (h.fresh _ hr)
  held := fun r hr => (hc.held r hr).elim (fun hold => hc.acquired_le (h.held r hold)) And.right
  released := fun r hr =>
    hc.acquired_le ((hc.released r hr).elim (h.released r) (h.held r))

/-- Acquired, not released, and in nobody's hands. -/
structure Lost (r : Resource) (s : Portals) : Prop where
  acquired : r ∈ s.acquired
  kept : r ∉ s.released
  unheld : r ∉ s.held

/-- What is lost stays lost. -/
theorem Lost.step {s t : Portals} {r : Resource} (h : Lost r s) (hs : Sound s)
    (hc : Change s t) : Lost r t where
  acquired := hc.acquired_le h.acquired
  kept := fun hr => (hc.released r hr).elim h.kept h.unheld
  unheld := fun hr => (hc.held r hr).elim h.unheld fun hnew =>
    Nat.ne_of_lt (hs.fresh r h.acquired) hnew.1

/-! ## Areas are counted -/

/-- The UMEM areas among some resources. -/
def areas (rs : List Resource) : Nat := rs.countP fun r => decide (r.kind = .umemArea)

theorem areas_append (rs rs' : List Resource) : areas (rs ++ rs') = areas rs + areas rs' :=
  List.countP_append

theorem areas_singleton (kind : Handle) (id : Nat) :
    areas [{ kind := kind, id := id }] = (decide (kind = .umemArea)).toNat := by
  cases kind <;> rfl

private theorem areas_owned {h : Handles} {area : Nat} (harea : h .umemArea = some area) :
    areas (owned h) = 1 := by
  have hcount : (owned h).count { kind := .umemArea, id := area } = 1 :=
    List.count_eq_one_of_mem (owned_nodup h) (mem_owned.mpr harea)
  rw [← hcount]
  refine List.countP_congr fun r hr => ?_
  rw [decide_eq_true_iff, beq_iff_eq]
  constructor
  · intro hkind
    rw [mem_owned, hkind, harea] at hr
    obtain ⟨kind, id⟩ := r
    cases hkind
    cases hr
    rfl
  · rintro rfl
    rfl

end Portals

/-- A portal more that holds an area. -/
def PortalOp.isMoveConstruct : PortalOp → Bool
  | .moveConstruct _ _ => true
  | _ => false

theorem PortalOp.isMoveConstruct_of_call {op : PortalOp} {portal : Nat} {kind : Handle}
    (h : op.call = some (portal, kind)) : op.isMoveConstruct = false := by
  cases op with
  | initializeUmem | createSocket | loadKernelProgram => rfl
  | construct | moveConstruct | moveAssign | destroy => cases h

namespace Portals

/-- Areas released and to be released keep step with areas acquired, but for
the move constructions. -/
theorem Outcome.balance {s t : Portals} {op : PortalOp} (hs : Sound s) (h : Outcome s op t) :
    areas t.released + t.live.length + areas s.acquired =
      areas s.released + s.live.length + areas t.acquired +
        op.isMoveConstruct.toNat := by
  cases h with
  | created hnew =>
      show areas s.released + (s.live.length + 1) + areas s.acquired =
        areas s.released + s.live.length + areas (s.acquired ++ [_]) + 0
      rw [areas_append, areas_singleton]
      show areas s.released + (s.live.length + 1) + areas s.acquired =
        areas s.released + s.live.length + (areas s.acquired + 1) + 0
      omega
  | notCreated => rfl
  | @acquired _ portal kind hcall hmay =>
      show areas s.released + s.live.length + areas s.acquired =
        areas s.released + s.live.length + areas (s.acquired ++ [_]) + _
      have hkind := (PortalOp.call_eq_some hcall).1
      rw [areas_append, areas_singleton, decide_eq_false hkind,
        PortalOp.isMoveConstruct_of_call hcall]
      rfl
  | failed hcall _ | assignedNull hcall _ =>
      rw [PortalOp.isMoveConstruct_of_call hcall]
      rfl
  | moveConstructed hsource hnew =>
      show areas s.released + (s.live.length + 1) + areas s.acquired =
        areas s.released + s.live.length + areas s.acquired + 1
      omega
  | moveAssigned hsource hportal hne => rfl
  | @destroyed portal hportal =>
      show areas (s.released ++ owned (s.handles portal)) + (s.live.erase portal).length +
        areas s.acquired = areas s.released + s.live.length + areas s.acquired + 0
      obtain ⟨area, harea⟩ := hs.area portal hportal
      have hlength := List.length_erase_of_mem hportal
      have hpos := List.length_pos_of_mem hportal
      rw [areas_append, areas_owned harea]
      omega

private theorem balance_of_run {s t : Portals} {ops : List PortalOp} (h : system.Run s ops t)
    (hs : Sound s) :
    Sound t ∧ areas t.released + t.live.length + areas s.acquired =
      areas s.released + s.live.length + areas t.acquired +
        ops.countP PortalOp.isMoveConstruct := by
  induction h with
  | nil s => exact ⟨hs, rfl⟩
  | @cons s t u op ops hstep _ ih =>
      have hout := outcome_of_apply hstep
      have hone := hout.balance hs
      obtain ⟨hu, hrest⟩ := ih (hs.step hout.change)
      refine ⟨hu, ?_⟩
      rw [List.countP_cons]
      cases hmove : op.isMoveConstruct with
      | true =>
          rw [hmove, Bool.toNat_true] at hone
          simp only [if_true]
          omega
      | false =>
          rw [hmove, Bool.toNat_false] at hone
          simp only [Bool.false_eq_true, if_false]
          omega

theorem Lost.run {r : Resource} {s t : Portals} {ops : List PortalOp} (h : system.Run s ops t)
    (hs : Sound s) (hlost : Lost r s) : Lost r t := by
  induction h with
  | nil s => exact hlost
  | cons hstep _ ih =>
      have hc := (outcome_of_apply hstep).change
      exact ih (hs.step hc) (hlost.step hs hc)

/-! ## What holds along the runs without moves -/

/-- The books balance. -/
def Balanced (s : Portals) : Prop :=
  ∀ r, s.released.count r + s.held.count r = s.acquired.count r

/-- A new resource in a member that was null. -/
theorem Balanced.acquire {s : Portals} {portal : Nat} {kind : Handle} (h : s.Balanced)
    (hnames : s.live.Nodup) (hlive : portal ∈ s.live) (hnull : s.handles portal kind = none) :
    (s.acquire portal kind).Balanced := by
  have hown : owned ((s.acquire portal kind).handles portal) =
      owned (Function.update (s.handles portal) kind (some s.next)) :=
    congrArg owned (Function.update_self portal _ _)
  have hbeside : (s.acquire portal kind).heldBeside portal = s.heldBeside portal :=
    heldBeside_update hnames _
  have hsplit : (s.acquire portal kind).held.Perm
      (owned ((s.acquire portal kind).handles portal) ++
        (s.acquire portal kind).heldBeside portal) := held_split hlive
  rw [hown, hbeside] at hsplit
  have hheld : (s.acquire portal kind).held.Perm ({ kind := kind, id := s.next } :: s.held) :=
    hsplit.trans (((owned_update hnull _).append_right _).trans ((held_split hlive).symm.cons _))
  intro r
  rw [hheld.count_eq r]
  show s.released.count r + (({ kind := kind, id := s.next } : Resource) :: s.held).count r =
    (s.acquired ++ [({ kind := kind, id := s.next } : Resource)]).count r
  rw [List.count_append, List.count_cons, List.count_singleton, ← h r]
  exact (Nat.add_assoc _ _ _).symm

/-- No two live portals share a handle: what was acquired is held once or was
released, once.  A handle that is not null had its call for its area. -/
structure Tidy (s : Portals) : Prop extends Sound s where
  names : s.live.Nodup
  books : s.Balanced
  called : ∀ portal ∈ s.live, ∀ area, s.handles portal .umemArea = some area →
    ∀ kind, kind ≠ .umemArea → s.handles portal kind ≠ none → (kind, area) ∈ s.called

theorem tidy_empty : Tidy empty where
  toSound := sound_empty
  names := List.nodup_nil
  books := fun _ => rfl
  called := fun portal hportal => by cases hportal

/-- What a call may write is null. -/
theorem Tidy.null_of_mayCall {s : Portals} {portal : Nat} {kind : Handle} (h : Tidy s)
    (hmay : s.mayCall portal kind = true) (hkind : kind ≠ .umemArea) :
    s.handles portal kind = none := by
  have hlive := mem_live_of_mayCall hmay
  obtain ⟨area, harea⟩ := h.area portal hlive
  have huncalled : (kind, area) ∉ s.called := by
    have hall := (Bool.and_eq_true_iff.mp hmay).2
    rw [harea] at hall
    exact of_decide_eq_true (List.all_eq_true.mp hall area (List.mem_singleton_self _))
  by_contra hsome
  exact huncalled (h.called portal hlive area harea kind hkind hsome)

theorem Tidy.note {s : Portals} (h : Tidy s) (portal : Nat) (kind : Handle) :
    Tidy (s.note portal kind) where
  area := h.area
  fresh := h.fresh
  distinct := h.distinct
  held := h.held
  released := h.released
  names := h.names
  books := h.books
  called := fun other hother area harea kind' hkind hsome =>
    List.mem_append_left _ (h.called other hother area harea kind' hkind hsome)

private theorem mem_called_note {s : Portals} {portal : Nat} {kind : Handle} {area : Nat}
    (harea : s.handles portal .umemArea = some area) :
    (kind, area) ∈ (s.note portal kind).called := by
  refine List.mem_append_right _ (List.mem_map_of_mem ?_)
  rw [harea]
  exact List.mem_singleton_self _

theorem Tidy.construct {s : Portals} {portal : Nat} (h : Tidy s) (hnew : portal ∉ s.live) :
    Tidy (s.afterConstruct portal true) where
  toSound := h.toSound.step (Outcome.created hnew).change
  names := h.names.cons hnew
  books := by
    -- the new object holds nothing until its area is acquired
    have hothers : (s.live.flatMap fun other =>
        owned (Function.update s.handles portal (fun _ => none) other)) = s.held := by
      refine List.flatMap_congr fun other hother => ?_
      have hne : other ≠ portal := by
        rintro rfl
        exact hnew hother
      exact congrArg owned (Function.update_of_ne hne _ _)
    have hbooks : Balanced
        { s with
          live := portal :: s.live
          handles := Function.update s.handles portal fun _ => none } := by
      intro r
      show s.released.count r + (owned (Function.update s.handles portal (fun _ => none) portal) ++
        s.live.flatMap fun other =>
          owned (Function.update s.handles portal (fun _ => none) other)).count r = _
      rw [Function.update_self, owned_null, List.nil_append, hothers]
      exact h.books r
    have hnull : Function.update s.handles portal (fun _ => none) portal .umemArea = none := by
      rw [Function.update_self]
    exact hbooks.acquire (h.names.cons hnew) List.mem_cons_self hnull
  called := by
    intro other hother area harea kind hkind hsome
    rw [overwrites_afterConstruct.handles] at harea hsome
    by_cases heq : other = portal
    · rw [heq, Function.update_self, Function.update_of_ne hkind] at hsome
      exact absurd rfl hsome
    · rw [Function.update_of_ne heq] at harea hsome
      exact h.called other ((List.mem_cons.mp hother).resolve_left heq) area harea kind hkind hsome

theorem Tidy.call {s : Portals} {op : PortalOp} {portal : Nat} {kind : Handle} (h : Tidy s)
    (hcall : op.call = some (portal, kind)) (hmay : s.mayCall portal kind = true) :
    Tidy ((s.note portal kind).acquire portal kind) where
  toSound := h.toSound.step (Outcome.acquired hcall hmay).change
  names := h.names
  books := (h.note portal kind).books.acquire h.names (@mem_live_of_mayCall s portal kind hmay)
    (h.null_of_mayCall hmay (PortalOp.call_eq_some hcall).1)
  called := by
    intro other hother area harea kind' hkind hsome
    have hne := (PortalOp.call_eq_some hcall).1
    have hlive := mem_live_of_mayCall hmay
    change Function.update s.handles portal
      (Function.update (s.handles portal) kind (some s.next)) other _ = _ at harea
    change Function.update s.handles portal
      (Function.update (s.handles portal) kind (some s.next)) other _ ≠ _ at hsome
    by_cases heq : other = portal
    · rw [heq, Function.update_self, Function.update_of_ne hne.symm] at harea
      by_cases hkinds : kind' = kind
      · rw [hkinds]
        exact mem_called_note harea
      · rw [heq, Function.update_self, Function.update_of_ne hkinds] at hsome
        exact (h.note portal kind).called portal hlive area harea kind' hkind hsome
    · rw [Function.update_of_ne heq] at harea hsome
      exact (h.note portal kind).called other hother area harea kind' hkind hsome

theorem Tidy.destroy {s : Portals} {portal : Nat} (h : Tidy s) (hportal : portal ∈ s.live) :
    Tidy (s.afterDestroy portal) where
  toSound := h.toSound.step (Outcome.destroyed hportal).change
  names := h.names.erase portal
  books := by
    intro r
    show (s.released ++ owned (s.handles portal)).count r + (s.heldBeside portal).count r =
      s.acquired.count r
    rw [List.count_append, Nat.add_assoc, ← List.count_append, ← (held_split hportal).count_eq r]
    exact h.books r
  called := fun other hother => h.called other (List.mem_of_mem_erase hother)

/-- Every operation that is not a move keeps the account. -/
theorem Tidy.step {s t : Portals} {op : PortalOp} (h : Tidy s) (hout : Outcome s op t)
    (hmove : op.isMove = false) : Tidy t := by
  cases hout with
  | created hnew => exact h.construct hnew
  | notCreated => exact h
  | acquired hcall hmay => exact h.call hcall hmay
  | failed => exact h.note _ _
  | @assignedNull _ portal kind hcall hmay =>
      -- the member was null
      have hnull := h.null_of_mayCall hmay (PortalOp.call_eq_some hcall).1
      have hsame : (s.note portal kind).setHandle portal kind none = s.note portal kind := by
        unfold setHandle
        rw [← hnull]
        show { s.note portal kind with
          handles := Function.update s.handles portal
            (Function.update (s.handles portal) kind (s.handles portal kind)) } = _
        rw [Function.update_eq_self, Function.update_eq_self]
        rfl
      rw [hsame]
      exact h.note portal kind
  | moveConstructed | moveAssigned => cases hmove
  | destroyed hportal => exact h.destroy hportal

theorem Tidy.run {s t : Portals} {ops : List PortalOp} (h : system.Run s ops t) (hs : Tidy s)
    (hmoves : ∀ op ∈ ops, op.isMove = false) : Tidy t := by
  induction h with
  | nil s => exact hs
  | cons hstep _ ih =>
      obtain ⟨hmove, hrest⟩ := List.forall_mem_cons.mp hmoves
      exact ih (hs.step (outcome_of_apply hstep) hmove) hrest

/-- What a live portal holds was released by nobody. -/
theorem Tidy.unreleased {s : Portals} {r : Resource} (h : Tidy s) (hr : r ∈ s.held) :
    r ∉ s.released := by
  intro hreleased
  have hbooks := h.books r
  have honce := List.nodup_iff_count_le_one.mp h.distinct r
  have hheld := List.count_pos_iff.mpr hr
  have hgone := List.count_pos_iff.mpr hreleased
  omega

/-- A move assignment to a portal that shares nothing forgets its area. -/
theorem Tidy.lost_of_moveAssign {s : Portals} {portal source : Nat} (h : Tidy s)
    (hsource : source ∈ s.live) (hportal : portal ∈ s.live) (hne : portal ≠ source) :
    ∃ r, Lost r (s.copyHandles portal source) := by
  obtain ⟨area, harea⟩ := h.area portal hportal
  have hown : { kind := .umemArea, id := area } ∈ owned (s.handles portal) :=
    mem_owned.mpr harea
  have hheld := mem_held.mpr ⟨portal, hportal, hown⟩
  have hbeside : { kind := .umemArea, id := area } ∉ s.heldBeside portal := by
    intro hmem
    have hsplit := (held_split hportal).count_eq { kind := .umemArea, id := area }
    rw [List.count_append] at hsplit
    have hbooks := h.books { kind := .umemArea, id := area }
    have honce := List.nodup_iff_count_le_one.mp h.distinct { kind := .umemArea, id := area }
    have hpos := List.count_pos_iff.mpr hown
    have hpos' := List.count_pos_iff.mpr hmem
    omega
  refine ⟨{ kind := .umemArea, id := area }, h.held _ hheld, h.unreleased hheld, ?_⟩
  intro hmem
  have hsplit : (s.copyHandles portal source).held.Perm
      (owned ((s.copyHandles portal source).handles portal) ++
        (s.copyHandles portal source).heldBeside portal) := held_split hportal
  have hcopy : (s.copyHandles portal source).handles portal = s.handles source :=
    Function.update_self portal _ _
  have hothers : (s.copyHandles portal source).heldBeside portal = s.heldBeside portal :=
    heldBeside_update h.names _
  rw [hcopy, hothers] at hsplit
  rcases List.mem_append.mp (hsplit.mem_iff.mp hmem) with hsrc | hother
  · exact hbeside (List.mem_flatMap.mpr
      ⟨source, (List.mem_erase_of_ne hne.symm).mpr hsource, hsrc⟩)
  · exact hbeside hother

/-- The first move of a run that has no move construction forgets an area. -/
theorem Tidy.lost_of_run {s t : Portals} {ops : List PortalOp} (h : system.Run s ops t)
    (hs : Tidy s) (hconstruct : ops.countP PortalOp.isMoveConstruct = 0) :
    (∀ op ∈ ops, op.isMove = false) ∨ ∃ r, Lost r t := by
  induction h with
  | nil s => exact .inl fun op hop => by cases hop
  | @cons s u t op ops hstep hrest ih =>
      have hout := outcome_of_apply hstep
      have hnone := List.countP_eq_zero.mp hconstruct
      have htail := List.countP_eq_zero.mpr fun op hop => hnone op (List.mem_cons_of_mem _ hop)
      cases hmove : op.isMove with
      | false =>
          rcases ih (hs.step hout hmove) htail with hnoMove | hlost
          · exact .inl (List.forall_mem_cons.mpr ⟨hmove, hnoMove⟩)
          · exact .inr hlost
      | true =>
          cases hout with
          | moveAssigned hsource hportal hne =>
              obtain ⟨r, hlost⟩ := hs.lost_of_moveAssign hsource hportal hne
              exact .inr ⟨r, hlost.run hrest (hs.toSound.step (outcome_of_apply hstep).change)⟩
          | moveConstructed => exact absurd rfl (hnone _ List.mem_cons_self)
          | created | notCreated | destroyed => cases hmove
          | acquired hcall _ | failed hcall _ | assignedNull hcall _ =>
              rw [(PortalOp.call_eq_some hcall).2] at hmove
              cases hmove

/-! ## Single release -/

/-- What is acquired is released once, and on the way no live portal holds
what has been released. -/
structure SingleRelease (ops : List PortalOp) (t : Portals) : Prop where
  once : ∀ r ∈ t.acquired, t.released.count r = 1
  unreleased : ∀ done rest u, ops = done ++ rest → system.Run empty done u →
    ∀ portal ∈ u.live, ∀ r ∈ owned (u.handles portal), r ∉ u.released

theorem SingleRelease.perm {ops : List PortalOp} {t : Portals} (h : SingleRelease ops t)
    (hsound : Sound t) : t.released.Perm t.acquired := by
  refine List.perm_iff_count.mpr fun r => ?_
  by_cases hr : r ∈ t.acquired
  · rw [h.once r hr, List.count_eq_one_of_mem hsound.distinct hr]
  · rw [List.count_eq_zero.mpr hr, List.count_eq_zero.mpr fun h => hr (hsound.released r h)]

/-- The areas tell of move constructions, and what is lost of the rest. -/
theorem SingleRelease.no_moves {ops : List PortalOp} {t : Portals} (h : SingleRelease ops t)
    (hrun : system.Run empty ops t) (hdone : t.live = []) : ∀ op ∈ ops, op.isMove = false := by
  obtain ⟨hsound, hbalance⟩ := balance_of_run hrun sound_empty
  have hareas : areas t.released = areas t.acquired := (h.perm hsound).countP_eq _
  have hconstruct : ops.countP PortalOp.isMoveConstruct = 0 := by
    rw [hareas, hdone] at hbalance
    change _ + 0 + 0 = 0 + 0 + _ + _ at hbalance
    omega
  refine (tidy_empty.lost_of_run hrun hconstruct).resolve_right ?_
  rintro ⟨r, hlost⟩
  have honce := h.once r hlost.acquired
  rw [List.count_eq_zero.mpr hlost.kept] at honce
  cases honce

/-- Any sequence of operations from no objects to no objects releases each
resource once exactly when it has no moves. -/
theorem single_release_iff {ops : List PortalOp} {t : Portals} (h : system.Run empty ops t)
    (hdone : t.live = []) :
    SingleRelease ops t ↔ ∀ op ∈ ops, op.isMove = false := by
  constructor
  · intro hsingle
    exact hsingle.no_moves h hdone
  · intro hmoves
    have htidy := tidy_empty.run h hmoves
    have hnobody : t.held = [] := by
      rw [held, hdone]
      rfl
    constructor
    · intro r hr
      have hbooks := htidy.books r
      rw [hnobody, List.count_eq_one_of_mem htidy.distinct hr] at hbooks
      exact hbooks
    · rintro done rest u rfl hrun portal hportal r hr
      have hu := tidy_empty.run hrun fun op hop => hmoves op (List.mem_append_left _ hop)
      exact hu.unreleased (mem_held.mpr ⟨portal, hportal, hr⟩)

/-- Two portals, the second with a socket that could not be created. -/
theorem single_release_two_portals :
    ∃ t, t.live = [] ∧ SingleRelease
      [.construct 0 true, .initializeUmem 0 true, .construct 1 true, .createSocket 1 false,
        .destroy 0, .destroy 1] t :=
  ⟨_, rfl, (single_release_iff (System.run_of_exec rfl) rfl).mpr (by decide)⟩

/-- A portal moved into another: both destructors free the one area. -/
theorem moved_area_freed_twice :
    ∃ t, system.Run empty
        [.construct 0 true, .moveConstruct 1 0, .destroy 0, .destroy 1] t ∧ t.live = [] ∧
      ¬ SingleRelease [.construct 0 true, .moveConstruct 1 0, .destroy 0, .destroy 1] t := by
  refine ⟨_, System.run_of_exec (f := apply) rfl, rfl, fun h => ?_⟩
  have honce := h.once { kind := .umemArea, id := 0 } (by decide)
  revert honce
  decide

end Portals

end PorthCore.Ports.PortalHandles
