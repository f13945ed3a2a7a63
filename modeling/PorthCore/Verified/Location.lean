/-!
# Shared locations that may be read stale

A shared atomic location is its modification order: the values it has held,
oldest first.  A reader owns a *view*, the position of the value its last load
returned.  Coherence is the only promise a load gets: it returns the value at
some position not before the view, and moves the view there.  In particular it
may return any value the location has held since the reader last looked, and
the current one is only the newest of these.

`Tracks P` says that the value at every position of the modification order
satisfies `P` at that position; it is how a location that counts (modulo
something) is related to an unbounded counter.
-/

namespace PorthCore.Verified

/-- A location as its modification order; it has held at least one value. -/
structure Location (α : Type) where
  initial : α
  stores : List α

namespace Location

variable {α : Type}

/-- Every value held so far, oldest first. -/
def held (l : Location α) : List α := l.initial :: l.stores

/-- The position of the current value. -/
def latest (l : Location α) : Nat := l.stores.length

/-- The current value. -/
def current (l : Location α) : α := l.held.getLast (List.cons_ne_nil _ _)

/-- A store goes behind those before it. -/
def store (l : Location α) (v : α) : Location α := { l with stores := l.stores ++ [v] }

/-- A load by a reader whose view is `view`: the value at `pos`, which must
not lie before the view. -/
def load (l : Location α) (view pos : Nat) : Option α :=
  if view ≤ pos then l.held[pos]? else none

/-- Every value ever held satisfies `P` at its position. -/
def Tracks (l : Location α) (P : Nat → α → Prop) : Prop :=
  ∀ pos v, l.held[pos]? = some v → P pos v

theorem held_length (l : Location α) : l.held.length = l.latest + 1 := rfl

@[simp] theorem held_store (l : Location α) (v : α) : (l.store v).held = l.held ++ [v] := rfl

@[simp] theorem latest_store (l : Location α) (v : α) :
    (l.store v).latest = l.latest + 1 := by
  simp [latest, store]

@[simp] theorem current_store (l : Location α) (v : α) : (l.store v).current = v := by
  simp [current]

theorem held_latest (l : Location α) : l.held[l.latest]? = some l.current := by
  have hlast : l.held.getLast? = some l.current := List.getLast?_eq_some_getLast _
  rwa [List.getLast?_eq_getElem?, held_length] at hlast

/-- What a load can return: a value held at a position between the view and
the newest store. -/
theorem load_eq_some {l : Location α} {view pos : Nat} {v : α}
    (h : l.load view pos = some v) :
    view ≤ pos ∧ pos ≤ l.latest ∧ l.held[pos]? = some v := by
  unfold load at h
  split at h
  · next hle =>
      have hlt := (List.getElem?_eq_some_iff.mp h).1
      rw [held_length] at hlt
      exact ⟨hle, by omega, h⟩
  · cases h

/-- A load may always return the current value. -/
theorem load_latest {l : Location α} {view : Nat} (h : view ≤ l.latest) :
    l.load view l.latest = some l.current := by
  rw [load, if_pos h, held_latest]

theorem tracks_init {P : Nat → α → Prop} {v : α} (h : P 0 v) :
    (Location.mk v []).Tracks P := by
  intro pos w hw
  cases pos with
  | zero =>
      simp only [held, List.getElem?_cons_zero, Option.some.injEq] at hw
      exact hw ▸ h
  | succ pos => simp [held] at hw

theorem Tracks.store {l : Location α} {P : Nat → α → Prop} (h : l.Tracks P) {v : α}
    (hv : P (l.latest + 1) v) : (l.store v).Tracks P := by
  intro pos w hw
  rw [held_store] at hw
  by_cases hlt : pos < l.held.length
  · rw [List.getElem?_append_left hlt] at hw
    exact h pos w hw
  · rw [List.getElem?_append_right (by omega)] at hw
    have hpos : pos = l.latest + 1 := by
      have hsome := (List.getElem?_eq_some_iff.mp hw).1
      rw [held_length] at hlt hsome
      simp only [List.length_cons, List.length_nil] at hsome
      omega
    subst hpos
    simp only [held_length, Nat.sub_self, List.getElem?_cons_zero, Option.some.injEq] at hw
    exact hw ▸ hv

theorem Tracks.current {l : Location α} {P : Nat → α → Prop} (h : l.Tracks P) :
    P l.latest l.current := h _ _ l.held_latest

end Location

end PorthCore.Verified
