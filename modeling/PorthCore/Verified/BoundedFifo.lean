import PorthCore.Verified.Transition

/-!
# The bounded FIFO queue

What a ring buffer is for, without indices or slots: a list of at most `cap`
elements, appended to at the back and served from the front.  An operation
answers with what a caller of the concrete queue can see, so that `step` can
be compared with an implementation answer by answer.

`accepted` and `delivered` read the two histories off the operations and
their answers; `history` says that they differ by exactly the queue, which is
"no loss, no duplication, no reordering" in one equation.
-/

namespace PorthCore.Verified.BoundedFifo

open PorthCore.Verified.Transition

/-- A call on the queue.  `pop` carries the value its output parameter has
before the call. -/
inductive Op (α : Type)
  | push (x : α)
  | pop (out : α)
  deriving DecidableEq, Repr

/-- What the caller sees: the result flag, and for `pop` the output parameter
after the call. -/
inductive Obs (α : Type)
  | pushed (ok : Bool)
  | popped (ok : Bool) (out : α)
  deriving DecidableEq, Repr

variable {α : Type}

/-- One call on a queue of capacity `cap`. -/
def step (cap : Nat) (q : List α) : Op α → Obs α × List α
  | .push x => if q.length < cap then (.pushed true, q ++ [x]) else (.pushed false, q)
  | .pop out =>
      match q with
      | [] => (.popped false out, [])
      | x :: rest => (.popped true x, rest)

/-- The elements whose `push` was answered with `true`. -/
def accepted : List (Op α) → List (Obs α) → List α
  | .push x :: ops, .pushed true :: obs => x :: accepted ops obs
  | _ :: ops, _ :: obs => accepted ops obs
  | _, _ => []

/-- The elements handed out by a `pop` answered with `true`. -/
def delivered : List (Obs α) → List α
  | .popped true x :: obs => x :: delivered obs
  | _ :: obs => delivered obs
  | [] => []

theorem step_push_of_lt {cap : Nat} {q : List α} (x : α) (h : q.length < cap) :
    step cap q (.push x) = (.pushed true, q ++ [x]) := if_pos h

theorem step_push_of_ge {cap : Nat} {q : List α} (x : α) (h : cap ≤ q.length) :
    step cap q (.push x) = (.pushed false, q) := if_neg (by omega)

@[simp] theorem step_pop_nil (cap : Nat) (out : α) :
    step cap [] (.pop out) = (.popped false out, []) := rfl

@[simp] theorem step_pop_cons (cap : Nat) (x : α) (rest : List α) (out : α) :
    step cap (x :: rest) (.pop out) = (.popped true x, rest) := rfl

/-- Along every word of calls, what was queued before plus what was accepted
is what was delivered plus what is queued after, in this order. -/
theorem history (cap : Nat) : ∀ (ops : List (Op α)) (q : List α),
    q ++ accepted ops (outputs (step cap) q ops) =
      delivered (outputs (step cap) q ops) ++ final (step cap) q ops := by
  intro ops
  induction ops with
  | nil => intro q; simp [accepted, delivered, outputs, final]
  | cons op ops ih =>
      intro q
      cases op with
      | push x =>
          by_cases hlt : q.length < cap
          · have h := ih (q ++ [x])
            simp only [outputs, final, step_push_of_lt x hlt, accepted, delivered]
            rw [← h, List.append_assoc, List.singleton_append]
          · simp only [outputs, final, step_push_of_ge x (by omega : cap ≤ q.length),
              accepted, delivered]
            exact ih q
      | pop out =>
          cases q with
          | nil =>
              simp only [outputs, final, step_pop_nil, accepted, delivered]
              exact ih []
          | cons x rest =>
              simp only [outputs, final, step_pop_cons, accepted, delivered,
                List.cons_append]
              rw [ih rest]

end PorthCore.Verified.BoundedFifo
