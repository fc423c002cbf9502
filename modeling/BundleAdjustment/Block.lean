import BundleAdjustment.Fault
import BundleAdjustment.Scalar

/-! # Parameter blocks

A block is the list of numbers that a residual formula is handed for one unknown. Formulas read it by position.
Where a block must be long enough, the length is checked in front; elsewhere a position past the end
stands for the last number of the block.
-/

namespace BundleAdjustment

abbrev Block (α : Type) := List α

/-- Whether a block may be shorter than the positions that are read from it. -/
inductive Access where
  | strict
  | saturating
  deriving DecidableEq

namespace Access

def require (access : Access) (count length : Nat) : Except Fault Unit :=
  let needed := match access with
    | strict => count
    | saturating => min count 1
  if needed ≤ length then pure () else throw .outOfRange

theorem require_of_le {count length : Nat} (access : Access) (h : count ≤ length) :
    access.require count length = pure () := by
  cases access <;> simp only [require]
  · rw [if_pos h]
  · rw [if_pos (by omega)]

end Access

namespace Block

variable {α : Type} [Scalar α]

/-- The number at a position, the last one past the end. -/
def entry (b : Block α) (i : Nat) : α := b[i]?.getD (b.getLast?.getD 0)

theorem entry_of_lt {b : Block α} {i : Nat} (h : i < b.length) : b.entry i = b[i] := by
  simp [entry, h]

end Block

end BundleAdjustment
