/-
# Errors and `WithError`

`terminal.cpp` reports failures through `Error` values and returns results paired with one
(`WithError<T>`); error.hpp is not under src/. The error kinds are the ones the code names
(`kSuccess`, `kFull`, `kInvalidFormat`, `kInvalidFile`) together with the two the spec adds
for the paging and task layers it calls (§7: out of memory, unknown task).
-/
import Mathlib

namespace HonOS

/-- The causes of an `Error` (error.hpp): the ones `terminal.cpp` names, and the spec's
`OutOfMemory` and `NotFound` (§7) for the layers below it. -/
inductive Error where
  | kSuccess
  | kFull
  | kInvalidFormat
  | kInvalidFile
  | kOutOfMemory
  | kNotFound
  deriving DecidableEq, Repr

/-- `if (err)`: an `Error` converts to `true` exactly when it is not `kSuccess`. -/
def Error.isErr (e : Error) : Bool := e != .kSuccess

@[simp] theorem Error.isErr_eq_false {e : Error} : e.isErr = false ↔ e = .kSuccess := by
  cases e <;> decide

@[simp] theorem Error.isErr_eq_true {e : Error} : e.isErr = true ↔ e ≠ .kSuccess := by
  cases e <;> decide

/-- `WithError<T>`: a value together with the error of the call that produced it. -/
structure WithError (α : Type) where
  value : α
  error : Error
  deriving DecidableEq, Repr

/-! ## `uint64_t` arithmetic in `Nat` -/

theorem uint64_toNat_add (a b : UInt64) : (a + b).toNat = (a.toNat + b.toNat) % 2 ^ 64 :=
  BitVec.toNat_add _ _

theorem uint64_le_iff {a b : UInt64} : a ≤ b ↔ a.toNat ≤ b.toNat := .rfl

end HonOS
