import Mathlib.Data.List.AList
import Mathlib.Data.List.Induction

/-!
# Dictionaries built from a list of pairs

A dictionary comprehension inserts its pairs in order, and a later pair
replaces an earlier one with the same key.  So a key is bound to the last of
the values the list has for it (`lookup_ofPairs`), and the others leave no
trace.

Nothing here mentions a program.
-/

namespace PorthCore.Verified.Dictionary

variable {κ ν : Type} [DecidableEq κ]

/-- The dictionary of a list of pairs. -/
def ofPairs (pairs : List (κ × ν)) : AList fun _ : κ => ν :=
  pairs.foldl (fun dict p => dict.insert p.1 p.2) ∅

/-- The values a list of pairs has for a key, in order. -/
def valuesOf (k : κ) (pairs : List (κ × ν)) : List ν :=
  pairs.filterMap fun p => if p.1 = k then some p.2 else none

variable {k : κ} {v : ν} {pairs before after : List (κ × ν)}

@[simp] theorem valuesOf_append :
    valuesOf k (before ++ after) = valuesOf k before ++ valuesOf k after :=
  List.filterMap_append

@[simp] theorem valuesOf_cons_self : valuesOf k ((k, v) :: pairs) = v :: valuesOf k pairs := by
  rw [valuesOf, List.filterMap_cons, if_pos rfl]
  rfl

@[simp] theorem valuesOf_singleton_ne {p : κ × ν} (h : p.1 ≠ k) : valuesOf k [p] = [] := by
  simp [valuesOf, h]

theorem valuesOf_eq_nil (h : ∀ p ∈ pairs, p.1 ≠ k) : valuesOf k pairs = [] := by
  rw [valuesOf, List.filterMap_eq_nil_iff]
  intro p hp
  exact if_neg (h p hp)

/-- **The last pair with a key binds it.** -/
theorem lookup_ofPairs (k : κ) (pairs : List (κ × ν)) :
    (ofPairs pairs).lookup k = (valuesOf k pairs).getLast? := by
  induction pairs using List.reverseRecOn with
  | nil => rfl
  | append_singleton pairs p ih =>
      have hinsert : ofPairs (pairs ++ [p]) = (ofPairs pairs).insert p.1 p.2 := by
        rw [ofPairs, List.foldl_concat, ofPairs]
      rw [hinsert, valuesOf_append]
      by_cases hk : p.1 = k
      · subst hk
        rw [AList.lookup_insert, valuesOf_cons_self, List.getLast?_append]
        rfl
      · rw [AList.lookup_insert_ne (Ne.symm hk), valuesOf_singleton_ne hk, List.append_nil, ih]

/-- A value with no later one for its key is the last. -/
theorem getLast?_valuesOf_append_cons (h : ∀ p ∈ after, p.1 ≠ k) :
    (valuesOf k (before ++ (k, v) :: after)).getLast? = some v := by
  rw [valuesOf_append, valuesOf_cons_self, valuesOf_eq_nil h, List.getLast?_concat]

end PorthCore.Verified.Dictionary
