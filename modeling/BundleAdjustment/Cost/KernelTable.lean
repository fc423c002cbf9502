import BundleAdjustment.Cost.Kernel

/-! # Shared kernels

Costs with the same kernel hold one handle to it. The table remembers which handle each kernel was given; it only
ever grows, and no kernel is entered twice.
-/

namespace BundleAdjustment

structure KernelTable where
  kernels : List Kernel

namespace KernelTable

/-- The position of a kernel in the table. -/
abbrev Handle := Nat

def empty : KernelTable := ⟨[]⟩

def get? (t : KernelTable) (h : Handle) : Option Kernel := t.kernels[h]?

/-- The handle of a kernel, a new one at its first use. -/
def intern (t : KernelTable) (k : Kernel) : Handle × KernelTable :=
  match t.kernels.idxOf? k with
  | some h => (h, t)
  | none => (t.kernels.length, ⟨t.kernels ++ [k]⟩)

theorem get?_intern (t : KernelTable) (k : Kernel) : (t.intern k).2.get? (t.intern k).1 = some k := by
  unfold intern get?
  cases h : t.kernels.idxOf? k with
  | none => simp
  | some i =>
    obtain ⟨hi, hk, -⟩ := List.findIdx?_eq_some_iff_getElem.1 h
    simpa [List.getElem?_eq_getElem hi] using hk

end KernelTable

end BundleAdjustment
