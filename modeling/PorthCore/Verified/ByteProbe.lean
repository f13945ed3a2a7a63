import Mathlib.Data.Nat.Bitwise

/-!
# Programs that look at bytes

A program that inspects a byte string does so by offset, and the next offset
may depend on the bytes already seen.  `Probe` is such a program as a tree of
reads.  Its meaning on a byte string is `run`; `reads` lists the offsets it
looks at there, in order.

A byte string is a function of the offset, defined everywhere: an access past
the end of an object finds whatever lies behind it.  That a program stays
inside `n` bytes is a fact about its reads, `Probe.Within`, and then bytes
outside have no say in the result (`Within.run_congr`).
-/

namespace PorthCore.Verified.ByteProbe

/-- A program that reads bytes and yields a value. -/
inductive Probe (α : Type) where
  | ret (value : α)
  | read (offset : Nat) (next : UInt8 → Probe α)

namespace Probe

variable {α β : Type}

/-- Read on where the first probe has ended. -/
def bind : Probe α → (α → Probe β) → Probe β
  | .ret value, f => f value
  | .read offset next, f => .read offset fun b => (next b).bind f

instance : Monad Probe where
  pure := .ret
  bind := Probe.bind

/-- The byte at an offset. -/
def byte (offset : Nat) : Probe UInt8 := .read offset .ret

/-- The value of a program on a byte string. -/
def run (bytes : Nat → UInt8) : Probe α → α
  | .ret value => value
  | .read offset next => (next (bytes offset)).run bytes

/-- The offsets a program looks at, in order. -/
def reads (bytes : Nat → UInt8) : Probe α → List Nat
  | .ret _ => []
  | .read offset next => offset :: (next (bytes offset)).reads bytes

variable {bytes bytes' : Nat → UInt8}

@[simp] theorem run_pure (value : α) : (pure value : Probe α).run bytes = value := rfl

@[simp] theorem reads_pure (value : α) : (pure value : Probe α).reads bytes = [] := rfl

@[simp] theorem run_byte (offset : Nat) : (byte offset).run bytes = bytes offset := rfl

@[simp] theorem reads_byte (offset : Nat) : (byte offset).reads bytes = [offset] := rfl

@[simp] theorem run_bind (p : Probe α) (f : α → Probe β) :
    (p >>= f).run bytes = (f (p.run bytes)).run bytes := by
  show (p.bind f).run bytes = _
  induction p with
  | ret value => rfl
  | read offset next ih => exact ih (bytes offset)

@[simp] theorem reads_bind (p : Probe α) (f : α → Probe β) :
    (p >>= f).reads bytes = p.reads bytes ++ (f (p.run bytes)).reads bytes := by
  show (p.bind f).reads bytes = _
  induction p with
  | ret value => rfl
  | read offset next ih => exact congrArg (offset :: ·) (ih (bytes offset))

/-- A program sees only what it reads. -/
theorem run_congr {p : Probe α} (h : ∀ i ∈ p.reads bytes, bytes i = bytes' i) :
    p.run bytes = p.run bytes' := by
  induction p with
  | ret value => rfl
  | read offset next ih =>
      obtain ⟨hhead, htail⟩ := List.forall_mem_cons.mp h
      show (next (bytes offset)).run bytes = (next (bytes' offset)).run bytes'
      rw [← hhead]
      exact ih (bytes offset) htail

/-! ## Staying inside an object -/

/-- On `bytes` the program reads below `n` only. -/
def Within (n : Nat) (bytes : Nat → UInt8) (p : Probe α) : Prop :=
  ∀ i ∈ p.reads bytes, i < n

/-- Inside an object the bytes behind it have no say. -/
theorem Within.run_congr {n : Nat} {p : Probe α} (h : Within n bytes p)
    (hsame : ∀ i < n, bytes i = bytes' i) : p.run bytes = p.run bytes' :=
  Probe.run_congr fun i hi => hsame i (h i hi)

theorem within_pure (n : Nat) (value : α) : Within n bytes (pure value) := by
  intro i hi
  cases hi

theorem within_byte {n offset : Nat} : Within n bytes (byte offset) ↔ offset < n := by
  simp [Within]

theorem within_bind {n : Nat} {p : Probe α} {f : α → Probe β} :
    Within n bytes (p >>= f) ↔ Within n bytes p ∧ Within n bytes (f (p.run bytes)) := by
  simp only [Within, reads_bind, List.forall_mem_append]

/-! ## Words and spans -/

/-- A 16-bit word from its bytes in network order. -/
def joinBytes (high low : UInt8) : UInt16 := high.toUInt16 <<< 8 ||| low.toUInt16

theorem toNat_joinBytes (high low : UInt8) :
    (joinBytes high low).toNat = 256 * high.toNat + low.toNat := by
  have hhigh := high.toNat_lt
  have hlow := low.toNat_lt
  have hshift : (high.toUInt16 <<< 8).toNat = high.toNat <<< 8 := by
    rw [UInt16.toNat_shiftLeft, UInt8.toNat_toUInt16]
    show high.toNat <<< 8 % 2 ^ 16 = _
    rw [Nat.shiftLeft_eq]
    omega
  rw [joinBytes, UInt16.toNat_or, hshift, UInt8.toNat_toUInt16,
    ← Nat.shiftLeft_add_eq_or_of_lt hlow, Nat.shiftLeft_eq]
  omega

/-- The 16-bit word in network order at an offset. -/
def be16 (offset : Nat) : Probe UInt16 := do
  let high ← byte offset
  let low ← byte (offset + 1)
  pure (joinBytes high low)

@[simp] theorem run_be16 (offset : Nat) :
    (be16 offset).run bytes = joinBytes (bytes offset) (bytes (offset + 1)) := rfl

theorem within_be16 {n offset : Nat} : Within n bytes (be16 offset) ↔ offset + 1 < n := by
  have hreads : (be16 offset).reads bytes = [offset, offset + 1] := rfl
  simp only [Within, hreads, List.forall_mem_cons, List.not_mem_nil, false_imp_iff, implies_true,
    and_true]
  omega

/-- The `count` bytes from an offset on. -/
def span (offset : Nat) : Nat → Probe (List UInt8)
  | 0 => pure []
  | count + 1 => do
      let head ← byte offset
      let tail ← span (offset + 1) count
      pure (head :: tail)

theorem run_span (offset count : Nat) :
    (span offset count).run bytes = (List.range' offset count).map bytes := by
  induction count generalizing offset with
  | zero => rfl
  | succ count ih =>
      simp only [span, run_bind, run_byte, run_pure, ih, List.range'_succ, List.map_cons]

theorem reads_span (offset count : Nat) :
    (span offset count).reads bytes = List.range' offset count := by
  induction count generalizing offset with
  | zero => rfl
  | succ count ih =>
      simp only [span, reads_bind, reads_byte, reads_pure, ih, List.append_nil, List.range'_succ]
      rfl

theorem within_span {n offset count : Nat} (h : offset + count ≤ n) :
    Within n bytes (span offset count) := by
  intro i hi
  rw [reads_span, List.mem_range'_1] at hi
  omega

end Probe

end PorthCore.Verified.ByteProbe
