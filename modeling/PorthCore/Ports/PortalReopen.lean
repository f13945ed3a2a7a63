import PorthCore.Verified.Transition

/-!
# Binding and opening a `PorthXDPPortal` more than once

`bind_shuttle_memory` and `open_portal` may be called again, and each stores
what libxdp has created over what the portal held.  The destructor deletes the
socket and the UMEM stored last, and libxdp does not delete a UMEM that still
has a socket.

`open_portal` asks for the socket's descriptor before it looks at the result of
the creation.  A creation that fails stores nothing, so that the descriptor is
that of an earlier socket, if there is one.
-/

namespace PorthCore.Ports.PortalReopen

open PorthCore.Verified.Transition
open PorthCore.Verified.Transition.System

/-- What the two functions throw. -/
inductive XdpError
  | umemCreate
  | umemMissing
  | socketFd
  | socketCreate (ret : Int)
  deriving DecidableEq, Repr

/-- The texts of the exceptions. -/
def XdpError.what (ifname : String) (queueId : UInt32) : XdpError → String
  | .umemCreate => "Failed to map PorthShuttle as XDP UMEM."
  | .umemMissing => "Porth-XDP: UMEM not initialized. Call bind_shuttle_memory first."
  | .socketFd => "Porth-XDP: Failed to retrieve XDP socket file descriptor."
  | .socketCreate ret =>
      s!"Porth-XDP: Failed to create AF_XDP socket on {ifname} (Queue {queueId}). " ++
        s!"Error code: {ret}"

/-- What the members of a portal hold, less its rings. -/
structure PorthXDPPortal where
  umem : Option Nat
  xsk : Option Nat
  xskFd : Int
  umemStart : UInt64
  umemEnd : UInt64
  deriving DecidableEq, Repr

/-- A portal and what libxdp has open for it: UMEMs, and sockets with the UMEM
each is on, the newest first.  `bound` and `opened` count the creations. -/
structure Lifecycle where
  portal : PorthXDPPortal
  alive : Bool
  thrown : Option XdpError
  umems : List Nat
  sockets : List (Nat × Nat)
  bound : Nat
  opened : Nat
  deriving DecidableEq, Repr

/-- The calls, with what libxdp answers: the UMEM or the socket if one was
created, the result of `xsk_socket__create`, and that of `xsk_socket__fd`. -/
inductive LifecycleOp
  | bind (base size : UInt64) (umem : Option Nat)
  | open (socket : Option Nat) (ret fd : Int)
  | destroy
  deriving DecidableEq, Repr

namespace Lifecycle

/-- A portal just constructed. -/
def fresh : Lifecycle :=
  { portal := { umem := none, xsk := none, xskFd := -1, umemStart := 0, umemEnd := 0 }
    alive := true
    thrown := none
    umems := []
    sockets := []
    bound := 0
    opened := 0 }

/-- `bind_shuttle_memory`. -/
def afterBind (s : Lifecycle) (base size : UInt64) (umem : Option Nat) : Lifecycle :=
  { s with
    portal :=
      { s.portal with
        umemStart := base
        umemEnd := base + size
        umem := umem.or s.portal.umem }
    thrown := if umem = none then some .umemCreate else none
    umems := umem.toList ++ s.umems
    bound := s.bound + umem.toList.length }

/-- `open_portal`. -/
def afterOpen (s : Lifecycle) (socket : Option Nat) (ret fd : Int) : Lifecycle :=
  match s.portal.umem with
  | none => { s with thrown := some .umemMissing }
  | some umem =>
      { s with
        portal :=
          { s.portal with
            xsk := socket.or s.portal.xsk
            xskFd := fd }
        thrown :=
          if fd < 0 then some .socketFd
          else if ret ≠ 0 then some (.socketCreate ret)
          else none
        sockets := (socket.toList.map fun id => (id, umem)) ++ s.sockets
        opened := s.opened + socket.toList.length }

/-- The sockets `xsk_socket__delete` leaves. -/
def socketsLeft (s : Lifecycle) : List (Nat × Nat) :=
  s.sockets.filter fun k => decide (some k.1 ≠ s.portal.xsk)

/-- `~PorthXDPPortal`. -/
def afterDestroy (s : Lifecycle) : Lifecycle :=
  { s with
    alive := false
    thrown := none
    sockets := s.socketsLeft
    umems :=
      match s.portal.umem with
      | none => s.umems
      | some umem => if ∃ k ∈ s.socketsLeft, k.2 = umem then s.umems else s.umems.erase umem }

/-- One call. -/
def apply (s : Lifecycle) : LifecycleOp → Lifecycle
  | .bind base size umem => s.afterBind base size umem
  | .open socket ret fd => s.afterOpen socket ret fd
  | .destroy => s.afterDestroy

/-- What libxdp answers: something new, a result of 0 with a socket and with
nothing else, and a negative descriptor for the null pointer and for nothing
else. -/
def Answers (s : Lifecycle) : LifecycleOp → Prop
  | .bind _ _ umem => ∀ id ∈ umem, id ∉ s.umems
  | .open socket ret fd =>
      (∀ id ∈ socket, id ∉ s.sockets.map Prod.fst) ∧ (socket = none ↔ ret ≠ 0) ∧
        (fd < 0 ↔ socket.or s.portal.xsk = none)
  | .destroy => True

/-- Any sequence of calls on one portal, up to its destruction. -/
def system : System Lifecycle LifecycleOp where
  init := (· = fresh)
  step := fun s op t => s.alive = true ∧ Answers s op ∧ t = s.apply op

/-! ## The portal holds the newest -/

/-- While the portal lives nothing is deleted. -/
structure Holds (s : Lifecycle) : Prop where
  umem : s.portal.umem = s.umems.head?
  xsk : s.portal.xsk = (s.sockets.map Prod.fst).head?
  umemsOnce : s.umems.Nodup
  socketsOnce : (s.sockets.map Prod.fst).Nodup
  bound : s.umems.length = s.bound
  opened : s.sockets.length = s.opened

variable {s t : Lifecycle}

theorem Holds.bind (h : Holds s) {base size : UInt64} {umem : Option Nat}
    (hnew : ∀ id ∈ umem, id ∉ s.umems) : Holds (s.afterBind base size umem) := by
  cases umem with
  | none => exact { h with }
  | some id =>
      exact { h with
        umem := rfl
        umemsOnce := List.nodup_cons.mpr ⟨hnew id rfl, h.umemsOnce⟩
        bound := congrArg (· + 1) h.bound }

theorem Holds.open (h : Holds s) {socket : Option Nat} {ret fd : Int}
    (hnew : ∀ id ∈ socket, id ∉ s.sockets.map Prod.fst) : Holds (s.afterOpen socket ret fd) := by
  unfold afterOpen
  cases s.portal.umem with
  | none => exact { h with }
  | some umem =>
      cases socket with
      | none => exact { h with }
      | some id =>
          exact { h with
            xsk := rfl
            socketsOnce := List.nodup_cons.mpr ⟨hnew id rfl, h.socketsOnce⟩
            opened := congrArg (· + 1) h.opened }

/-- The portal lives, or it has been destroyed where it held the newest. -/
def Kept (s : Lifecycle) : Prop := s.alive = true ∧ Holds s ∨ ∃ u, Holds u ∧ s = u.afterDestroy

theorem kept_of_reachable (h : system.Reachable s) : Kept s := by
  refine h.invariant ?_ ?_
  · rintro s rfl
    exact .inl ⟨rfl, ⟨rfl, rfl, List.nodup_nil, List.nodup_nil, rfl, rfl⟩⟩
  · rintro s op t hs ⟨halive, hanswers, rfl⟩
    rcases hs with ⟨-, hs⟩ | ⟨u, -, rfl⟩
    · cases op with
      | bind base size umem => exact .inl ⟨halive, hs.bind hanswers⟩
      | «open» socket ret fd =>
          refine .inl ⟨?_, hs.open hanswers.1⟩
          show (s.afterOpen socket ret fd).alive = true
          unfold afterOpen
          split <;> exact halive
      | destroy => exact .inr ⟨s, hs, rfl⟩
    · cases halive

/-! ## What the destructor leaves -/

/-- All sockets but the newest are left. -/
theorem Holds.socketsLeft_eq (h : Holds s) : s.socketsLeft = s.sockets.tail := by
  have hxsk := h.xsk
  have honce := h.socketsOnce
  unfold socketsLeft
  cases hsockets : s.sockets with
  | nil => rfl
  | cons k rest =>
      rw [hsockets] at hxsk honce
      obtain ⟨hk, -⟩ := List.nodup_cons.mp honce
      have hsome : s.portal.xsk = some k.1 := hxsk
      have hhead : decide (some k.1 ≠ s.portal.xsk) = false := by simp [hsome]
      simp only [List.filter_cons, hhead, Bool.false_eq_true, if_false, List.tail_cons]
      refine List.filter_eq_self.mpr ?_
      intro k' hk'
      rw [decide_eq_true_iff, hsome]
      intro heq
      exact hk (Option.some.inj heq ▸ List.mem_map_of_mem hk')

/-- The newest UMEM goes if no socket is left on it. -/
theorem Holds.umems_destroy (h : Holds s) :
    s.afterDestroy.umems = [] ↔
      s.bound = 0 ∨ s.bound = 1 ∧ ∀ k ∈ s.sockets.tail, some k.2 ≠ s.portal.umem := by
  have humem := h.umem
  have hbound := h.bound
  simp only [afterDestroy, h.socketsLeft_eq]
  cases humems : s.umems with
  | nil =>
      rw [humems] at humem hbound
      rw [humem]
      exact iff_of_true rfl (.inl hbound.symm)
  | cons umem rest =>
      rw [humems] at humem hbound
      rw [humem]
      dsimp only [List.head?_cons]
      rw [List.length_cons] at hbound
      by_cases hbusy : ∃ k ∈ s.sockets.tail, k.2 = umem
      · rw [if_pos hbusy]
        refine iff_of_false (List.cons_ne_nil _ _) ?_
        rintro (hzero | ⟨-, hnone⟩)
        · omega
        · obtain ⟨k, hk, heq⟩ := hbusy
          exact hnone k hk (congrArg some heq)
      · rw [if_neg hbusy, List.erase_cons_head, ← List.length_eq_zero_iff]
        constructor
        · intro hrest
          refine .inr ⟨by omega, ?_⟩
          intro k hk heq
          exact hbusy ⟨k, hk, Option.some.inj heq⟩
        · rintro (hzero | ⟨hone, -⟩)
          · omega
          · omega

/-- **A portal is destroyed without a trace only if it was bound and opened at
most once.**  After any run that ends with its destruction, all sockets but
the last are still open, and nothing at all is open if and only if at most one
UMEM and at most one socket were ever created. -/
theorem reopened_portal_leaks (h : system.Reachable s) (hgone : s.alive = false) :
    s.sockets.length = s.opened - 1 ∧
      (s.sockets = [] ∧ s.umems = [] ↔ s.bound ≤ 1 ∧ s.opened ≤ 1) := by
  rcases kept_of_reachable h with ⟨halive, -⟩ | ⟨u, hu, rfl⟩
  · rw [hgone] at halive
    cases halive
  · have hsockets : u.afterDestroy.sockets = u.sockets.tail := hu.socketsLeft_eq
    have hlength : u.afterDestroy.sockets.length = u.opened - 1 := by
      rw [hsockets, List.length_tail, hu.opened]
    refine ⟨hlength, ?_⟩
    rw [← List.length_eq_zero_iff, hlength, hu.umems_destroy]
    show u.opened - 1 = 0 ∧ _ ↔ u.bound ≤ 1 ∧ u.opened ≤ 1
    constructor
    · rintro ⟨hopened, hzero | ⟨hone, -⟩⟩
      · omega
      · omega
    · rintro ⟨hbound, hopened⟩
      refine ⟨by omega, ?_⟩
      have hnone : u.sockets.tail = [] := by
        rw [← hsockets, ← List.length_eq_zero_iff, hlength]
        omega
      rcases Nat.le_one_iff_eq_zero_or_eq_one.mp hbound with hzero | hone
      · exact .inl hzero
      · refine .inr ⟨hone, ?_⟩
        rw [hnone]
        exact List.forall_mem_nil _

/-- **The error code of a failed creation is reported from the second socket
on.**  Wherever a bound portal has got to, a creation that fails is reported
with its code if and only if an earlier one has succeeded; otherwise the
exception is about the descriptor. -/
theorem create_error_reported (h : system.Reachable s) (halive : s.alive = true)
    (hbound : s.portal.umem ≠ none) {ret fd : Int} (hret : ret ≠ 0)
    (hanswers : Answers s (.open none ret fd)) :
    ((s.afterOpen none ret fd).thrown = some (.socketCreate ret) ↔ 0 < s.opened) ∧
      ((s.afterOpen none ret fd).thrown = some .socketFd ↔ s.opened = 0) := by
  rcases kept_of_reachable h with ⟨-, hs⟩ | ⟨u, -, rfl⟩
  · obtain ⟨umem, humem⟩ := Option.ne_none_iff_exists'.mp hbound
    have hfd : fd < 0 ↔ s.opened = 0 := by
      rw [hanswers.2.2, Option.none_or, hs.xsk, List.head?_eq_none_iff, List.map_eq_nil_iff,
        ← List.length_eq_zero_iff, hs.opened]
    have hthrown : (s.afterOpen none ret fd).thrown =
        if fd < 0 then some .socketFd else some (.socketCreate ret) := by
      simp only [afterOpen, humem, hret, ne_eq, not_false_eq_true, if_true]
    rw [hthrown]
    by_cases hneg : fd < 0
    · have hzero := hfd.mp hneg
      simp [hneg, hzero]
    · have hpos : s.opened ≠ 0 := fun hzero => hneg (hfd.mpr hzero)
      simp [hneg, hpos, Nat.pos_of_ne_zero hpos]
  · cases halive

/-! ## Opened twice -/

/-- Bound once and opened twice. -/
def openedTwice : Lifecycle :=
  ((fresh.apply (.bind 0x200000 0x200000 (some 0))).apply (.open (some 0) 0 5)).apply
    (.open (some 1) 0 6)

theorem openedTwice_reachable : system.Reachable openedTwice := by
  have hrun : system.Run fresh
      [.bind 0x200000 0x200000 (some 0), .open (some 0) 0 5, .open (some 1) 0 6] openedTwice :=
    .cons ⟨rfl, by simp [Answers, fresh], rfl⟩
      (.cons ⟨rfl, by simp [Answers, fresh, apply, afterBind], rfl⟩
        (.cons ⟨rfl, by simp [Answers, fresh, apply, afterBind, afterOpen], rfl⟩ (.nil _)))
  exact ⟨fresh, _, rfl, hrun⟩

theorem reopened_portal_leaks_twice :
    (openedTwice.apply .destroy).sockets.length = 1 ∧
      ¬((openedTwice.apply .destroy).sockets = [] ∧ (openedTwice.apply .destroy).umems = []) := by
  obtain ⟨hlength, hclean⟩ := reopened_portal_leaks
    (openedTwice_reachable.step (a := LifecycleOp.destroy) ⟨rfl, trivial, rfl⟩) rfl
  refine ⟨hlength, fun hnone => ?_⟩
  exact absurd (hclean.mp hnone).2 (by decide)

/-- A third creation that fails is reported with its code. -/
theorem create_error_reported_third :
    (openedTwice.afterOpen none (-16) 6).thrown = some (.socketCreate (-16)) :=
  ((create_error_reported openedTwice_reachable rfl (by decide) (by decide)
    ⟨by simp, by decide, by decide⟩).1).mpr (by decide)

end Lifecycle

end PorthCore.Ports.PortalReopen
