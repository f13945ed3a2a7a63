/-!
# Transition systems, runs and invariants

The concurrent models of this package are labelled transition systems: a
predicate for the initial states and a labelled step relation.  This module
fixes the two ways a run is looked at, as a list of labels leading from one
state to another (`System.Run`) and as membership in the set of reachable
states (`System.Reachable`), and proves the invariant rule for both once.

`System.restrict` keeps only the steps that meet a side condition.  A run of
`M.restrict C` is a run of `M` all of whose steps meet `C`, so a statement
about "every run in which nobody does X" is a statement about reachability in
a restricted system.

The second half is for deterministic machines with output (`outputs`,
`final`): two machines related by a functional simulation answer every input
word alike.

Nothing here mentions a program.
-/

namespace PorthCore.Verified.Transition

/-- A labelled transition system over states `σ` with labels `α`. -/
structure System (σ α : Type) where
  init : σ → Prop
  step : σ → α → σ → Prop

namespace System

variable {σ α : Type}

/-- `M.Run s as t`: the labels `as`, taken in order from `s`, can end in `t`. -/
inductive Run (M : System σ α) : σ → List α → σ → Prop
  | nil (s : σ) : Run M s [] s
  | cons {s t u : σ} {a : α} {as : List α} :
      M.step s a t → Run M t as u → Run M s (a :: as) u

/-- The states some run from an initial state ends in. -/
def Reachable (M : System σ α) (s : σ) : Prop :=
  ∃ s₀ as, M.init s₀ ∧ M.Run s₀ as s

/-- The system whose steps are the steps of `M` that meet `C`. -/
def restrict (M : System σ α) (C : σ → α → Prop) : System σ α where
  init := M.init
  step := fun s a t => C s a ∧ M.step s a t

/-- The system of a partial step function. -/
def ofStep (init : σ → Prop) (f : σ → α → Option σ) : System σ α where
  init := init
  step := fun s a t => f s a = some t

/-! ## Runs -/

theorem Run.append {M : System σ α} {s t u : σ} {as bs : List α}
    (h : M.Run s as t) (h' : M.Run t bs u) : M.Run s (as ++ bs) u := by
  induction h with
  | nil s => exact h'
  | cons hstep _ ih => exact .cons hstep (ih h')

theorem Run.concat {M : System σ α} {s t u : σ} {as : List α} {a : α}
    (h : M.Run s as t) (hst : M.step t a u) : M.Run s (as ++ [a]) u :=
  h.append (.cons hst (.nil u))

/-- Whatever one step preserves, a whole run preserves. -/
theorem Run.preserves {M : System σ α} {I : σ → Prop}
    (hstep : ∀ s a t, I s → M.step s a t → I t)
    {s t : σ} {as : List α} (h : M.Run s as t) (hs : I s) : I t := by
  induction h with
  | nil s => exact hs
  | cons hst _ ih => exact ih (hstep _ _ _ hs hst)

theorem Reachable.of_init {M : System σ α} {s : σ} (h : M.init s) :
    M.Reachable s := ⟨s, [], h, .nil s⟩

theorem Reachable.step {M : System σ α} {s t : σ} {a : α}
    (h : M.Reachable s) (hst : M.step s a t) : M.Reachable t := by
  obtain ⟨s₀, as, hinit, hrun⟩ := h
  exact ⟨s₀, as ++ [a], hinit, hrun.concat hst⟩

theorem Reachable.run {M : System σ α} {s t : σ} {as : List α}
    (h : M.Reachable s) (hrun : M.Run s as t) : M.Reachable t := by
  obtain ⟨s₀, bs, hinit, hrun₀⟩ := h
  exact ⟨s₀, bs ++ as, hinit, hrun₀.append hrun⟩

/-- The invariant rule: what holds initially and is preserved by every step
holds in every reachable state. -/
theorem Reachable.invariant {M : System σ α} {I : σ → Prop}
    (hinit : ∀ s, M.init s → I s)
    (hstep : ∀ s a t, I s → M.step s a t → I t)
    {s : σ} (h : M.Reachable s) : I s := by
  obtain ⟨s₀, as, h₀, hrun⟩ := h
  exact hrun.preserves hstep (hinit s₀ h₀)

theorem Run.of_restrict {M : System σ α} {C : σ → α → Prop} {s t : σ}
    {as : List α} (h : (M.restrict C).Run s as t) : M.Run s as t := by
  induction h with
  | nil s => exact .nil s
  | cons hst _ ih => exact .cons hst.2 ih

theorem Reachable.of_restrict {M : System σ α} {C : σ → α → Prop} {s : σ}
    (h : (M.restrict C).Reachable s) : M.Reachable s := by
  obtain ⟨s₀, as, hinit, hrun⟩ := h
  exact ⟨s₀, as, hinit, hrun.of_restrict⟩

/-- A run all of whose labels meet `C` wherever they are taken. -/
theorem Run.restrict_of_forall {M : System σ α} {C : σ → α → Prop} {s t : σ} {as : List α}
    (h : M.Run s as t) (hC : ∀ a ∈ as, ∀ u, C u a) : (M.restrict C).Run s as t := by
  induction h with
  | nil s => exact .nil s
  | @cons s u t a as hst _ ih =>
      obtain ⟨hhead, htail⟩ := List.forall_mem_cons.mp hC
      exact .cons ⟨hhead s, hst⟩ (ih htail)

/-- A run all of whose labels meet `C` is a run of the system restricted to
them. -/
theorem Run.restrict_labels {M : System σ α} {C : α → Prop} {s t : σ} {as : List α}
    (h : M.Run s as t) (hC : ∀ a ∈ as, C a) : (M.restrict fun _ a => C a).Run s as t :=
  h.restrict_of_forall fun a ha _ => hC a ha

/-- A run in two phases, the first `a` between them: one invariant up to it, the
other from it on, as long as no `b` comes. -/
theorem Run.preserves_phases {M : System σ α} {I J : σ → Prop} {a b : α}
    (hbefore : ∀ s c t, I s → M.step s c t → c ≠ a → I t)
    (hmark : ∀ s t, I s → M.step s a t → J t)
    (hafter : ∀ s c t, J s → M.step s c t → c ≠ b → J t)
    {s t : σ} {as : List α} (h : M.Run s as t) (hs : I s) (horder : ¬[a, b].Sublist as) :
    I t ∨ J t := by
  induction h with
  | nil s => exact .inl hs
  | @cons s u t c as hst hrest ih =>
      by_cases hc : c = a
      · subst hc
        have hnone : ∀ c' ∈ as, c' ≠ b := by
          rintro c' hmem rfl
          exact horder ((List.singleton_sublist.mpr hmem).cons_cons c)
        have hrun := hrest.restrict_labels (C := (· ≠ b)) hnone
        refine .inr (hrun.preserves (I := J) ?_ (hmark s u hs hst))
        rintro v c' w hv ⟨hne, hstep⟩
        exact hafter v c' w hv hstep hne
      · refine ih (hbefore s c u hs hst hc) ?_
        intro hsub
        exact horder (hsub.cons c)

/-- A run through a concatenation passes through a state in between. -/
theorem Run.of_append {M : System σ α} {s u : σ} {as bs : List α}
    (h : M.Run s (as ++ bs) u) : ∃ t, M.Run s as t ∧ M.Run t bs u := by
  induction as generalizing s with
  | nil => exact ⟨s, .nil s, h⟩
  | cons a as ih =>
      cases h with
      | cons hst hrest =>
          obtain ⟨t, hrun, hrun'⟩ := ih hrest
          exact ⟨t, .cons hst hrun, hrun'⟩

/-- A run takes each of its labels at some point. -/
theorem Run.of_append_cons {M : System σ α} {s u : σ} {a : α} {as bs : List α}
    (h : M.Run s (as ++ a :: bs) u) : ∃ v w, M.Run s as v ∧ M.step v a w ∧ M.Run w bs u := by
  obtain ⟨v, hbefore, hafter⟩ := h.of_append
  cases hafter with
  | cons hst hrest => exact ⟨v, _, hbefore, hst, hrest⟩

/-- A run that takes a `b` after an `a` has come from the one to the other. -/
theorem Run.of_pair_sublist {M : System σ α} {s t : σ} {a b : α} {as : List α}
    (h : M.Run s as t) (hsub : [a, b].Sublist as) :
    ∃ before after u v mid w x, as = before ++ b :: after ∧ M.Run s before w ∧ M.step w b x ∧
      M.step u a v ∧ M.Run v mid w := by
  obtain ⟨first, second, rfl, ha, hb⟩ := List.cons_sublist_iff.mp hsub
  obtain ⟨as, bs, rfl⟩ := List.append_of_mem ha
  obtain ⟨cs, ds, rfl⟩ := List.append_of_mem (List.singleton_sublist.mp hb)
  rw [← List.append_assoc] at h ⊢
  obtain ⟨w, x, hbefore, hlast, -⟩ := h.of_append_cons
  have hfirst := hbefore
  rw [List.append_assoc, List.cons_append] at hfirst
  obtain ⟨u, v, -, hst, hmid⟩ := hfirst.of_append_cons
  exact ⟨_, ds, u, v, bs ++ cs, w, x, rfl, hbefore, hlast, hst, hmid⟩

/-- If the steps are functions of the label, so are the runs. -/
theorem Run.deterministic {M : System σ α}
    (hdet : ∀ s a t t', M.step s a t → M.step s a t' → t = t') {s t t' : σ} {as : List α}
    (h : M.Run s as t) (h' : M.Run s as t') : t = t' := by
  induction h with
  | nil s =>
      cases h'
      rfl
  | cons hst _ ih =>
      cases h' with
      | cons hst' hrest' =>
          cases hdet _ _ _ _ hst hst'
          exact ih hrest'

/-- A run each of whose steps meets `C` where the run has come to. -/
theorem Run.restrict_of_prefixes {M : System σ α} {C : σ → α → Prop} {s t : σ} {as : List α}
    (h : M.Run s as t)
    (hC : ∀ before a after u v, as = before ++ a :: after → M.Run s before u →
      M.step u a v → C u a) : (M.restrict C).Run s as t := by
  induction h with
  | nil s => exact .nil s
  | @cons s u t a as hst _ ih =>
      refine .cons ⟨hC [] a as s u rfl (.nil s) hst, hst⟩ (ih ?_)
      intro before b after v w heq hrun hstep
      exact hC (a :: before) b after v w (congrArg (a :: ·) heq) (.cons hst hrun) hstep

/-- Two runs side by side: the steps `N` knows of are matched by its own, the
others keep the relation. -/
theorem Run.project {τ β : Type} {M : System σ α} {N : System τ β} {R : σ → τ → Prop}
    {visible : α → Option β}
    (hmatch : ∀ s a t u b, R s u → M.step s a t → visible a = some b →
      ∃ v, N.step u b v ∧ R t v)
    (hhide : ∀ s a t u, R s u → M.step s a t → visible a = none → R t u)
    {s t : σ} {as : List α} (h : M.Run s as t) {u : τ} (hR : R s u) :
    ∃ v, N.Run u (as.filterMap visible) v ∧ R t v := by
  induction h generalizing u with
  | nil s => exact ⟨u, .nil u, hR⟩
  | @cons s w t a as hst _ ih =>
      cases hvisible : visible a with
      | none =>
          rw [List.filterMap_cons_none hvisible]
          exact ih (hhide s a w u hR hst hvisible)
      | some b =>
          obtain ⟨v, hstep, hv⟩ := hmatch s a w u b hR hst hvisible
          obtain ⟨x, hrun, hx⟩ := ih hv
          rw [List.filterMap_cons_some hvisible]
          exact ⟨x, .cons hstep hrun, hx⟩

/-- Where every label can be taken by `f`, a schedule is taken by folding. -/
theorem Run.foldl {M : System σ α} {f : σ → α → σ} {as : List α}
    (hf : ∀ s, ∀ a ∈ as, M.step s a (f s a)) (s : σ) : M.Run s as (as.foldl f s) := by
  induction as generalizing s with
  | nil => exact .nil s
  | cons a as ih =>
      refine .cons (hf s a List.mem_cons_self) ?_
      exact ih (fun t b hb => hf t b (List.mem_cons_of_mem a hb)) (f s a)

/-- Where some step lowers a rank in every state short of the goal, some run
ends in the goal. -/
theorem exists_run_of_rank {M : System σ α} {I goal : σ → Prop} (rank : σ → Nat)
    (hstep : ∀ s, I s → ¬goal s → ∃ a t, M.step s a t ∧ I t ∧ rank t < rank s)
    {s : σ} (hs : I s) : ∃ as t, M.Run s as t ∧ goal t := by
  induction hrank : rank s using Nat.strongRecOn generalizing s with
  | ind k ih =>
      by_cases hgoal : goal s
      · exact ⟨[], s, .nil s, hgoal⟩
      · obtain ⟨a, u, hst, hu, hlt⟩ := hstep s hs hgoal
        obtain ⟨as, t, hrun, ht⟩ := ih (rank u) (hrank ▸ hlt) hu rfl
        exact ⟨a :: as, t, .cons hst hrun, ht⟩

/-! ## Running a partial step function -/

/-- What a step under a guard says when it is taken. -/
theorem of_guard {p : Prop} [Decidable p] {s t : σ}
    (h : (if p then some s else none) = some t) : p ∧ t = s := by
  obtain ⟨hp, hst⟩ := Option.ite_none_right_eq_some.mp h
  exact ⟨hp, (Option.some.inj hst).symm⟩

/-- Take the labels in order; `none` when one of them is not enabled. -/
def exec (f : σ → α → Option σ) : σ → List α → Option σ
  | s, [] => some s
  | s, a :: as => (f s a).bind fun t => exec f t as

theorem run_of_exec {init : σ → Prop} {f : σ → α → Option σ} :
    ∀ {as : List α} {s t : σ}, exec f s as = some t →
      (ofStep init f).Run s as t
  | [], s, t, h => by
      simp only [exec, Option.some.injEq] at h
      subst h
      exact .nil s
  | a :: as, s, t, h => by
      cases hf : f s a with
      | none => simp [exec, hf] at h
      | some u =>
          simp only [exec, hf, Option.bind_some] at h
          exact .cons hf (run_of_exec h)

/-- A test on the state a schedule ends in also shows that it ends. -/
theorem exec_of_any (f : σ → α → Option σ) (s : σ) (as : List α) (p : σ → Bool)
    (h : (exec f s as).any p = true) : ∃ t, exec f s as = some t ∧ p t = true := by
  cases hexec : exec f s as with
  | none => simp [hexec] at h
  | some t => exact ⟨t, rfl, by simpa [hexec] using h⟩

theorem reachable_of_exec {init : σ → Prop} {f : σ → α → Option σ}
    {as : List α} {s t : σ} (hs : init s) (h : exec f s as = some t) :
    (ofStep init f).Reachable t := ⟨s, as, hs, run_of_exec h⟩

/-- The steps that are taken, up to the first label that is not enabled. -/
def taken (f : σ → α → Option σ) : σ → List α → List (σ × α × σ)
  | _, [] => []
  | s, a :: as =>
      match f s a with
      | none => []
      | some t => (s, a, t) :: taken f t as

/-- An invariant that a step keeps exactly where it meets `C` holds along a run
exactly if all its steps meet `C`. -/
theorem forall_taken_iff {f : σ → α → Option σ} {I : σ → Prop} {C : σ → α → Prop}
    (hstep : ∀ s a t, I s → f s a = some t → (I t ↔ C s a)) {as : List α} {s : σ} (hs : I s) :
    (∀ x ∈ taken f s as, I x.2.2) ↔ ∀ x ∈ taken f s as, C x.1 x.2.1 := by
  induction as generalizing s with
  | nil => exact iff_of_true (List.forall_mem_nil _) (List.forall_mem_nil _)
  | cons a as ih =>
      cases hf : f s a with
      | none =>
          rw [taken, hf]
          exact iff_of_true (List.forall_mem_nil _) (List.forall_mem_nil _)
      | some t =>
          have hiff := hstep s a t hs hf
          rw [taken, hf]
          dsimp only
          rw [List.forall_mem_cons, List.forall_mem_cons]
          constructor
          · rintro ⟨ht, hrest⟩
            exact ⟨hiff.mp ht, (ih ht).mp hrest⟩
          · rintro ⟨hC, hrest⟩
            have ht := hiff.mpr hC
            exact ⟨ht, (ih ht).mpr hrest⟩

/-- A step function that takes only the steps that meet `C`. -/
def guarded (C : σ → α → Prop) [∀ s a, Decidable (C s a)] (f : σ → α → Option σ) :
    σ → α → Option σ :=
  fun s a => if C s a then f s a else none

/-- A schedule all of whose steps meet `C` is a run of the restricted
system. -/
theorem restrict_run_of_exec {init : σ → Prop} {C : σ → α → Prop} [∀ s a, Decidable (C s a)]
    {f : σ → α → Option σ} : ∀ {as : List α} {s t : σ}, exec (guarded C f) s as = some t →
      ((ofStep init f).restrict C).Run s as t
  | [], s, t, h => by
      simp only [exec, Option.some.injEq] at h
      subst h
      exact .nil s
  | a :: as, s, t, h => by
      simp only [exec, Option.bind_eq_some_iff, guarded, Option.ite_none_right_eq_some] at h
      obtain ⟨u, ⟨hC, hf⟩, hrest⟩ := h
      exact .cons ⟨hC, hf⟩ (restrict_run_of_exec hrest)

theorem restrict_reachable_of_exec {init : σ → Prop} {C : σ → α → Prop}
    [∀ s a, Decidable (C s a)] {f : σ → α → Option σ} {as : List α} {s t : σ} (hs : init s)
    (h : exec (guarded C f) s as = some t) : ((ofStep init f).restrict C).Reachable t :=
  ⟨s, as, hs, restrict_run_of_exec h⟩

end System

/-! ## Deterministic machines with output -/

section Mealy

variable {σ τ ι ο : Type}

/-- The answers of a machine to an input word. -/
def outputs (f : σ → ι → ο × σ) : σ → List ι → List ο
  | _, [] => []
  | s, i :: is => (f s i).1 :: outputs f (f s i).2 is

/-- The state a machine is in after an input word. -/
def final (f : σ → ι → ο × σ) : σ → List ι → σ
  | s, [] => s
  | s, i :: is => final f (f s i).2 is

/-- A functional simulation: related states give the same answer to every
input and step to related states. -/
def Simulates (R : σ → τ → Prop) (f : σ → ι → ο × σ) (g : τ → ι → ο × τ) : Prop :=
  ∀ s t i, R s t → (f s i).1 = (g t i).1 ∧ R (f s i).2 (g t i).2

/-- Related states answer every input word alike and end up related. -/
theorem Simulates.run {R : σ → τ → Prop} {f : σ → ι → ο × σ} {g : τ → ι → ο × τ}
    (h : Simulates R f g) : ∀ (is : List ι) (s : σ) (t : τ), R s t →
      outputs f s is = outputs g t is ∧ R (final f s is) (final g t is) := by
  intro is
  induction is with
  | nil => intro s t hst; exact ⟨rfl, hst⟩
  | cons i is ih =>
      intro s t hst
      obtain ⟨hout, hnext⟩ := h s t i hst
      obtain ⟨houts, hfinal⟩ := ih _ _ hnext
      exact ⟨by simp only [outputs, hout, houts], hfinal⟩

end Mealy

end PorthCore.Verified.Transition
