import PorthCore.Ports.Metric

/-!
# Several `PorthMetric` objects

The special members of `PorthMetric` are defaulted.  A move empties the
source's vector and copies the other two members, so the source keeps its old
`m_capacity` and `m_count` over no buffer, and nothing keeps anyone from using
it.  `safe_iff_moves_empty`: all objects stay usable exactly as long as
nothing is moved out of an object that has a capacity.
-/

namespace PorthCore.Ports.MetricObjects

open PorthCore.Verified.Transition
open PorthCore.Verified.Transition.System
open PorthCore.Ports.Metric

/-- What a defaulted move leaves of its source. -/
def movedFrom (m : PorthMetric) : PorthMetric := { m with samples := [] }

/-- An operation on the objects, which are numbered in the order of their
construction. -/
inductive ObjectOp
  | construct (maxSamples : Nat)
  | record (i : Nat) (latency : UInt64)
  | reset (i : Nat)
  | copyConstruct (source : Nat)
  | moveConstruct (source : Nat)
  | copyAssign (i source : Nat)
  | moveAssign (i source : Nat)
  deriving DecidableEq, Repr

/-- One operation; `none` where there is no such object, and where `record`
indexes outside `m_samples`.  The source of a move is emptied last, so an
object assigned to itself ends up empty. -/
def step (s : List PorthMetric) : ObjectOp → Option (List PorthMetric)
  | .construct maxSamples => some (s ++ [.make maxSamples])
  | .record i latency => do
      let m ← s[i]?
      let m' ← m.record latency
      some (s.set i m')
  | .reset i => do
      let m ← s[i]?
      some (s.set i m.reset)
  | .copyConstruct source => do
      let m ← s[source]?
      some (s ++ [m])
  | .moveConstruct source => do
      let m ← s[source]?
      some (s.set source (movedFrom m) ++ [m])
  | .copyAssign i source => do
      let _ ← s[i]?
      let m ← s[source]?
      some (s.set i m)
  | .moveAssign i source => do
      let _ ← s[i]?
      let m ← s[source]?
      some ((s.set i m).set source (movedFrom m))

/-- An object that can be used: the copies of its size agree, and neither
`record` nor `get_sorted_samples` indexes outside `m_samples`. -/
structure Safe (m : PorthMetric) : Prop where
  bounded : m.Bounded
  records : ∀ latency, (m.record latency).isSome
  sorts : m.getSortedSamples.isSome

/-- The operation moves nothing out of an object with a capacity. -/
def MovesEmpty (s : List PorthMetric) : ObjectOp → Prop
  | .moveConstruct source | .moveAssign _ source => ∀ m, s[source]? = some m → m.capacity = 0
  | _ => True

variable {s t : List PorthMetric} {m : PorthMetric} {op : ObjectOp}

private theorem safe_iff_bounded : Safe m ↔ m.Bounded := by
  constructor
  · intro h
    exact h.bounded
  · intro h
    refine ⟨h, fun latency => ?_, ?_⟩
    · obtain ⟨m', hrecord, -⟩ := h.record latency
      rw [hrecord]
      rfl
    · rw [h.getSortedSamples]
      rfl

/-- An object that was moved from has no buffer, and can be used only if it
never had one. -/
theorem movedFrom_bounded_iff (h : m.Bounded) : (movedFrom m).Bounded ↔ m.capacity = 0 := by
  constructor
  · intro hmoved
    exact hmoved.size
  · intro hzero
    exact ⟨h.count_le, hzero⟩

theorem forall_mem_set {P : PorthMetric → Prop} (h : ∀ x ∈ s, P x) {x : PorthMetric} (hx : P x)
    (i : Nat) : ∀ y ∈ s.set i x, P y := by
  intro y hy
  rcases List.mem_or_eq_of_mem_set hy with hmem | rfl
  · exact h y hmem
  · exact hx

theorem forall_mem_append_singleton {P : PorthMetric → Prop} (h : ∀ x ∈ s, P x)
    {x : PorthMetric} (hx : P x) : ∀ y ∈ s ++ [x], P y := by
  intro y hy
  rcases List.mem_append.mp hy with hmem | hlast
  · exact h y hmem
  · rw [List.mem_singleton.mp hlast]
    exact hx

/-- A list of objects after one of its members was moved from. -/
theorem forall_set_movedFrom_iff (h : ∀ x ∈ s, x.Bounded) (hm : m.Bounded) {source : Nat}
    (hsource : source < s.length) :
    (∀ x ∈ s.set source (movedFrom m), x.Bounded) ↔ m.capacity = 0 := by
  rw [← movedFrom_bounded_iff hm]
  constructor
  · intro hall
    exact hall _ (List.mem_set hsource _)
  · intro hmoved
    exact forall_mem_set h hmoved source

/-- The condition on a move, given its source. -/
theorem forall_source_iff {source : Nat} (hm : s[source]? = some m) :
    (∀ m', s[source]? = some m' → m'.capacity = 0) ↔ m.capacity = 0 := by
  rw [hm]
  constructor
  · intro h
    exact h m rfl
  · rintro h m' ⟨⟩
    exact h

/-- An operation on an object finds it, and usable. -/
theorem exists_object (h : ∀ m ∈ s, m.Bounded) {i : Nat}
    {f : PorthMetric → Option (List PorthMetric)} (hbind : s[i]?.bind f = some t) :
    ∃ m, s[i]? = some m ∧ m.Bounded ∧ f m = some t := by
  obtain ⟨m, hm, hnext⟩ := Option.bind_eq_some_iff.mp hbind
  exact ⟨m, hm, h m (List.mem_of_getElem? hm), hnext⟩

/-- **One operation.**  Where all objects can be used, they can be used after
it exactly if it moves nothing out of an object with a capacity. -/
theorem step_bounded_iff (h : ∀ m ∈ s, m.Bounded) (hstep : step s op = some t) :
    (∀ m ∈ t, m.Bounded) ↔ MovesEmpty s op := by
  cases op with
  | construct maxSamples =>
      cases hstep
      exact iff_of_true (forall_mem_append_singleton h (.make maxSamples)) trivial
  | record i latency =>
      obtain ⟨m, -, hm, hnext⟩ := exists_object h hstep
      obtain ⟨m', hrecord, hbounded⟩ := hm.record latency
      rw [hrecord] at hnext
      cases hnext
      exact iff_of_true (forall_mem_set h hbounded i) trivial
  | reset i =>
      obtain ⟨m, -, hm, hnext⟩ := exists_object h hstep
      cases hnext
      exact iff_of_true (forall_mem_set h hm.reset i) trivial
  | copyConstruct source =>
      obtain ⟨m, -, hm, hnext⟩ := exists_object h hstep
      cases hnext
      exact iff_of_true (forall_mem_append_singleton h hm) trivial
  | moveConstruct source =>
      obtain ⟨m, hm, hbounded, hnext⟩ := exists_object h hstep
      cases hnext
      obtain ⟨hlt, -⟩ := List.getElem?_eq_some_iff.mp hm
      rw [MovesEmpty, forall_source_iff hm, ← forall_set_movedFrom_iff h hbounded hlt]
      constructor
      · intro hall x hx
        exact hall x (List.mem_append_left _ hx)
      · intro hall
        exact forall_mem_append_singleton hall hbounded
  | copyAssign i source =>
      obtain ⟨-, -, -, hassign⟩ := exists_object h hstep
      obtain ⟨m, -, hm, hnext⟩ := exists_object h hassign
      cases hnext
      exact iff_of_true (forall_mem_set h hm i) trivial
  | moveAssign i source =>
      obtain ⟨-, -, -, hassign⟩ := exists_object h hstep
      obtain ⟨m, hm, hbounded, hnext⟩ := exists_object h hassign
      cases hnext
      obtain ⟨hlt, -⟩ := List.getElem?_eq_some_iff.mp hm
      rw [MovesEmpty, forall_source_iff hm]
      exact forall_set_movedFrom_iff (forall_mem_set h hbounded i) hbounded
        (List.length_set.symm ▸ hlt)

/-- **When the objects stay usable.**  Along any operations, every object can
be used after every step if and only if no step moves anything out of an
object with a capacity. -/
theorem safe_iff_moves_empty (ops : List ObjectOp) :
    (∀ x ∈ taken step [] ops, ∀ m ∈ x.2.2, Safe m) ↔
      ∀ x ∈ taken step [] ops, MovesEmpty x.1 x.2.1 := by
  simp only [safe_iff_bounded]
  apply forall_taken_iff (I := fun s : List PorthMetric => ∀ m ∈ s, m.Bounded)
  · intro s op t hs hstep
    exact step_bounded_iff hs hstep
  · exact List.forall_mem_nil _

/-- A recorder of one sample is moved into a new object: the old one still
claims room for a sample, and recording one would write outside its buffer. -/
theorem moved_from_not_safe :
    ¬∀ x ∈ taken step [] [.construct 1, .moveConstruct 0], ∀ m ∈ x.2.2, Safe m := by
  intro h
  have hmem : ([.make 1], .moveConstruct 0, [movedFrom (.make 1), .make 1]) ∈
      taken step [] [.construct 1, .moveConstruct 0] :=
    List.mem_cons_of_mem _ (List.mem_singleton_self _)
  have hsafe := h _ hmem (movedFrom (.make 1)) List.mem_cons_self
  have hrecord := hsafe.records 0
  revert hrecord
  decide

end PorthCore.Ports.MetricObjects
