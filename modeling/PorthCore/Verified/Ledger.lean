import Mathlib.Data.List.Perm.Basic
import PorthCore.Verified.Transition

/-!
# Ledgers of acquired resources

A program acquires resources from its environment (descriptors, mappings,
blocks of memory, threads), uses them and gives them back.  Its calls are
entered into a book, which keeps what is open and remembers every call on
something that was not.

`Balanced l owned` says that nothing was ever misused and that what is open is
`owned`, each resource once.  `Trades es before after` is the triple that goes
with it: whatever else is open, the calls `es` give up `before` and leave
`after`.  Triples compose, and the rest of the book is framed away.

The second half is about classes whose constructors and methods may throw.  A
process constructs, calls and destroys objects in any order; from one triple
for each member function, `Lawful.accounts` says what is open after any
history: what the live objects own and what was lost on the way.
-/

namespace PorthCore.Verified.Ledger

open PorthCore.Verified.Transition
open PorthCore.Verified.Transition.System

/-- A call to the environment. -/
inductive Entry (ρ : Type)
  | acquire (r : ρ)
  | use (r : ρ)
  | release (r : ρ)
  deriving DecidableEq, Repr

/-- What is open, and the resources that were used or released when they were
not. -/
structure Book (ρ : Type) where
  held : List ρ
  faults : List ρ
  deriving DecidableEq, Repr

variable {ρ : Type}

namespace Book

/-- Nothing is open. -/
def empty : Book ρ := { held := [], faults := [] }

/-- A misuse is noted. -/
def fault (l : Book ρ) (r : ρ) : Book ρ := { l with faults := r :: l.faults }

/-- Nothing was misused, and what is open is `owned`, each resource once. -/
structure Balanced (l : Book ρ) (owned : List ρ) : Prop where
  held : l.held.Perm owned
  nodup : l.held.Nodup
  faults : l.faults = []

namespace Balanced

variable {l : Book ρ} {owned owned' : List ρ}

theorem empty : Balanced (.empty : Book ρ) [] where
  held := .refl _
  nodup := List.nodup_nil
  faults := rfl

theorem perm (h : Balanced l owned) (hperm : owned.Perm owned') : Balanced l owned' :=
  { h with held := h.held.trans hperm }

end Balanced

variable [DecidableEq ρ]

/-- An entry is booked. -/
def post (l : Book ρ) : Entry ρ → Book ρ
  | .acquire r => { l with held := r :: l.held }
  | .use r => if r ∈ l.held then l else l.fault r
  | .release r => if r ∈ l.held then { l with held := l.held.erase r } else l.fault r

/-- Entries are booked in order. -/
def postAll (l : Book ρ) (es : List (Entry ρ)) : Book ρ := es.foldl post l

theorem postAll_append (l : Book ρ) (es es' : List (Entry ρ)) :
    l.postAll (es ++ es') = (l.postAll es).postAll es' := List.foldl_append

/-- The environment hands out nothing that is open already. -/
def Fresh : Book ρ → List (Entry ρ) → Prop
  | _, [] => True
  | l, .acquire r :: es => r ∉ l.held ∧ Fresh (l.post (.acquire r)) es
  | l, e :: es => Fresh (l.post e) es

/-- Freshness is decided entry by entry. -/
def decidableFresh : (l : Book ρ) → (es : List (Entry ρ)) → Decidable (Fresh l es)
  | _, [] => .isTrue trivial
  | l, .acquire r :: es =>
      have := decidableFresh (l.post (.acquire r)) es
      inferInstanceAs (Decidable (_ ∧ _))
  | l, .use r :: es => decidableFresh (l.post (.use r)) es
  | l, .release r :: es => decidableFresh (l.post (.release r)) es

instance (l : Book ρ) (es : List (Entry ρ)) : Decidable (Fresh l es) := decidableFresh l es

theorem fresh_append {es es' : List (Entry ρ)} : ∀ {l : Book ρ},
    Fresh l (es ++ es') → Fresh l es ∧ Fresh (l.postAll es) es' := by
  induction es with
  | nil => exact fun h => ⟨trivial, h⟩
  | cons e es ih =>
      intro l h
      cases e with
      | acquire r =>
          obtain ⟨hr, hrest⟩ := h
          obtain ⟨hes, hes'⟩ := ih hrest
          exact ⟨⟨hr, hes⟩, hes'⟩
      | use r => exact ih (l := l.post (.use r)) h
      | release r => exact ih (l := l.post (.release r)) h

namespace Balanced

variable {l : Book ρ} {owned : List ρ} {r : ρ}

theorem acquire (h : Balanced l owned) (hr : r ∉ l.held) :
    Balanced (l.post (.acquire r)) (r :: owned) where
  held := h.held.cons r
  nodup := List.nodup_cons.mpr ⟨hr, h.nodup⟩
  faults := h.faults

theorem use (h : Balanced l owned) (hr : r ∈ owned) : Balanced (l.post (.use r)) owned := by
  rw [post, if_pos (h.held.mem_iff.mpr hr)]
  exact h

theorem release (h : Balanced l (r :: owned)) : Balanced (l.post (.release r)) owned := by
  rw [post, if_pos (h.held.mem_iff.mpr List.mem_cons_self)]
  exact
    { held := (h.held.erase r).trans (by rw [List.erase_cons_head])
      nodup := h.nodup.erase r
      faults := h.faults }

end Balanced

/-- Whatever else is open, the calls give up `before` and leave `after`. -/
def Trades (es : List (Entry ρ)) (before after : List ρ) : Prop :=
  ∀ l rest, Balanced l (before ++ rest) → Fresh l es → Balanced (l.postAll es) (after ++ rest)

namespace Trades

variable {es es' : List (Entry ρ)} {before mid after : List ρ} {r : ρ}

theorem nil (owned : List ρ) : Trades [] owned owned := fun _ _ h _ => h

/-- Triples compose. -/
theorem append (h : Trades es before mid) (h' : Trades es' mid after) :
    Trades (es ++ es') before after := by
  intro l rest hbal hfresh
  obtain ⟨hes, hes'⟩ := fresh_append hfresh
  rw [postAll_append]
  exact h' _ rest (h l rest hbal hes) hes'

/-- What the calls do not touch stays. -/
theorem frame (h : Trades es before after) (owned : List ρ) :
    Trades es (before ++ owned) (after ++ owned) := by
  intro l rest hbal hfresh
  rw [List.append_assoc] at hbal ⊢
  exact h l (owned ++ rest) hbal hfresh

theorem perm {before' after' : List ρ} (h : Trades es before after)
    (hbefore : before'.Perm before) (hafter : after.Perm after') : Trades es before' after' := by
  intro l rest hbal hfresh
  exact (h l rest (hbal.perm (hbefore.append_right rest)) hfresh).perm (hafter.append_right rest)

theorem acquire (r : ρ) : Trades [.acquire r] [] [r] := by
  intro l rest hbal hfresh
  exact hbal.acquire hfresh.1

theorem use {owned : List ρ} (hr : r ∈ owned) : Trades [.use r] owned owned := by
  intro l rest hbal _
  exact hbal.use (List.mem_append_left rest hr)

theorem release (r : ρ) : Trades [.release r] [r] [] := by
  intro l rest hbal _
  exact Balanced.release hbal

/-- Calls one by one: acquisition puts the resource in front. -/
theorem cons_acquire (h : Trades es (r :: before) after) :
    Trades (.acquire r :: es) before after :=
  append (frame (acquire r) before) h

theorem cons_use (hr : r ∈ before) (h : Trades es before after) :
    Trades (.use r :: es) before after :=
  append (use hr) h

theorem cons_release (h : Trades es before after) :
    Trades (.release r :: es) (r :: before) after :=
  append (frame (release r) before) h

theorem releases (rs : List ρ) : Trades (rs.map .release) rs [] := by
  induction rs with
  | nil => exact nil []
  | cons r rs ih => exact cons_release ih

end Trades

end Book

/-! ## Classes whose members may throw -/

open Book

/-- What the member functions of a class ask of the environment.  `α` and `μ`
are the environment's answers to a construction and to a method call, `ε` what
a constructor throws. -/
structure Class (ρ ο α μ ε : Type) where
  construct : α → List (Entry ρ) × Except ε ο
  call : μ → ο → List (Entry ρ) × ο
  destroy : ο → List (Entry ρ)

/-- What an object owns, and what a construction that throws and a method call
leave behind for nobody to give back. -/
structure Ownership (ρ ο α μ : Type) where
  owned : ο → List ρ
  unwound : α → List ρ
  dropped : μ → ο → List ρ

variable {ο α μ ε : Type}

/-- What is open after a construction: the object's resources, or what is left
when it throws. -/
def outcome (owned : ο → List ρ) (left : List ρ) : Except ε ο → List ρ
  | .ok o => owned o
  | .error _ => left

/-- A process: its book, its live objects, and what was lost so far. -/
structure Process (ρ ο : Type) where
  book : Book ρ
  live : List ο
  lost : List ρ
  deriving DecidableEq, Repr

/-- What the live objects own and what was lost. -/
def Process.accounted (w : Ownership ρ ο α μ) (s : Process ρ ο) : List ρ :=
  s.live.flatMap w.owned ++ s.lost

/-- A live object's share in front. -/
theorem Process.accounted_perm [DecidableEq ο] {w : Ownership ρ ο α μ} {s : Process ρ ο} {o : ο}
    (ho : o ∈ s.live) :
    (s.accounted w).Perm (w.owned o ++ ((s.live.erase o).flatMap w.owned ++ s.lost)) := by
  rw [← List.append_assoc]
  exact ((List.perm_cons_erase ho).flatMap_right w.owned).append_right s.lost

variable [DecidableEq ρ]

/-- One triple for each member function. -/
structure Lawful (c : Class ρ ο α μ ε) (w : Ownership ρ ο α μ) : Prop where
  constructed : ∀ a,
    Trades (c.construct a).1 [] (outcome w.owned (w.unwound a) (c.construct a).2)
  called : ∀ m o, Trades (c.call m o).1 (w.owned o) (w.owned (c.call m o).2 ++ w.dropped m o)
  destroyed : ∀ o, Trades (c.destroy o) (w.owned o) []

/-- A construction, a call or a destruction. -/
inductive ClassOp (ο α μ : Type)
  | construct (a : α)
  | call (m : μ) (o : ο)
  | destroy (o : ο)
  deriving DecidableEq, Repr

variable [DecidableEq ο]

namespace Process

/-- No object has been constructed. -/
def start : Process ρ ο := { book := .empty, live := [], lost := [] }

/-- One operation, if the environment plays fair. -/
def step (c : Class ρ ο α μ ε) (w : Ownership ρ ο α μ) (s : Process ρ ο) :
    ClassOp ο α μ → Option (Process ρ ο)
  | .construct a =>
      if Fresh s.book (c.construct a).1 then
        match (c.construct a).2 with
        | .ok o =>
            some { s with book := s.book.postAll (c.construct a).1, live := o :: s.live }
        | .error _ =>
            some { s with
              book := s.book.postAll (c.construct a).1
              lost := w.unwound a ++ s.lost }
      else none
  | .call m o =>
      if o ∈ s.live ∧ Fresh s.book (c.call m o).1 then
        some
          { book := s.book.postAll (c.call m o).1
            live := (c.call m o).2 :: s.live.erase o
            lost := w.dropped m o ++ s.lost }
      else none
  | .destroy o =>
      if o ∈ s.live ∧ Fresh s.book (c.destroy o) then
        some { s with book := s.book.postAll (c.destroy o), live := s.live.erase o }
      else none

/-- What one operation of a history loses. -/
def lossOf (c : Class ρ ο α μ ε) (w : Ownership ρ ο α μ) : ClassOp ο α μ → List ρ
  | .construct a =>
      match (c.construct a).2 with
      | .ok _ => []
      | .error _ => w.unwound a
  | .call m o => w.dropped m o
  | .destroy _ => []

/-- Every history of constructions, calls and destructions. -/
def system (c : Class ρ ο α μ ε) (w : Ownership ρ ο α μ) : System (Process ρ ο) (ClassOp ο α μ) :=
  ofStep (· = start) (step c w)

end Process

namespace Lawful

variable {c : Class ρ ο α μ ε} {w : Ownership ρ ο α μ} {s t : Process ρ ο}

theorem step (h : Lawful c w) {op : ClassOp ο α μ} (hs : Book.Balanced s.book (s.accounted w))
    (hstep : s.step c w op = some t) : Book.Balanced t.book (t.accounted w) := by
  cases op with
  | construct a =>
      simp only [Process.step] at hstep
      split at hstep
      · next hfresh =>
          have hbal := h.constructed a s.book _ hs hfresh
          split at hstep
          · next o hok =>
              cases hstep
              rw [hok] at hbal
              rw [Process.accounted, List.flatMap_cons, List.append_assoc]
              exact hbal
          · next e herror =>
              cases hstep
              rw [herror] at hbal
              exact hbal.perm (List.perm_append_comm_assoc _ _ _)
      · cases hstep
  | call m o =>
      simp only [Process.step] at hstep
      obtain ⟨⟨ho, hfresh⟩, rfl⟩ := of_guard hstep
      have hbal := h.called m o s.book _ (hs.perm (Process.accounted_perm ho)) hfresh
      refine hbal.perm ?_
      rw [Process.accounted, List.flatMap_cons, List.append_assoc, List.append_assoc]
      exact List.Perm.append_left _ (List.perm_append_comm_assoc _ _ _)
  | destroy o =>
      simp only [Process.step] at hstep
      obtain ⟨⟨ho, hfresh⟩, rfl⟩ := of_guard hstep
      exact h.destroyed o s.book _ (hs.perm (Process.accounted_perm ho)) hfresh

/-- What a step has lost is what its operation loses. -/
theorem lost_step {op : ClassOp ο α μ} (hstep : s.step c w op = some t) :
    t.lost = Process.lossOf c w op ++ s.lost := by
  cases op with
  | construct a =>
      simp only [Process.step] at hstep
      split at hstep
      · split at hstep
        · next o hok =>
            cases hstep
            simp [Process.lossOf, hok]
        · next e herror =>
            cases hstep
            simp [Process.lossOf, herror]
      · cases hstep
  | call m o =>
      simp only [Process.step] at hstep
      obtain ⟨-, rfl⟩ := of_guard hstep
      rfl
  | destroy o =>
      simp only [Process.step] at hstep
      obtain ⟨-, rfl⟩ := of_guard hstep
      rfl

theorem lost_run {ops : List (ClassOp ο α μ)} (hrun : (Process.system c w).Run s ops t) :
    t.lost.Perm (ops.flatMap (Process.lossOf c w) ++ s.lost) := by
  induction hrun with
  | nil s => exact .refl _
  | @cons s u t op ops hst _ ih =>
      rw [lost_step hst] at ih
      rw [List.flatMap_cons, List.append_assoc]
      exact ih.trans (List.perm_append_comm_assoc _ _ _)

/-- After any history nothing was misused, and what is open is what the live
objects own and what the history has lost. -/
theorem accounts (h : Lawful c w) {ops : List (ClassOp ο α μ)}
    (hrun : (Process.system c w).Run .start ops s) :
    Book.Balanced s.book (s.live.flatMap w.owned ++ ops.flatMap (Process.lossOf c w)) := by
  have hbal : Book.Balanced s.book (s.accounted w) :=
    hrun.preserves (I := fun s => Book.Balanced s.book (s.accounted w))
      (fun _ _ _ hbal hstep => h.step hbal hstep) Book.Balanced.empty
  have hlost := lost_run hrun
  simp only [Process.start, List.append_nil] at hlost
  exact hbal.perm (hlost.append_left _)

end Lawful

end PorthCore.Verified.Ledger
