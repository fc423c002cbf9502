import BundleAdjustment.Matrix

/-! # Cholesky factorization

The lower factor of a positive-definite matrix, read from its lower triangle alone. It fails at the first
pivot that is zero or negative.
-/

namespace BundleAdjustment.Mat

variable {α : Type} [Scalar α]

/-- What remains of `A` below and right of its first pivot. -/
def schurComplement {n : Nat} (A : Mat (n + 1) (n + 1) α) (column : Vector α n) : Mat n n α :=
  ofFn fun i j => A.entry i.succ j.succ - column.get i * column.get j

/-- The lower triangular `L` with `L * Lᵀ = A`, if no pivot is zero or negative. -/
def cholesky? : {n : Nat} → Mat n n α → Option (Mat n n α)
  | 0, A => some A
  | n + 1, A =>
    if Scalar.lt (A.entry 0 0) 0 || Scalar.eq (A.entry 0 0) 0 then none else
      let root := Scalar.sqrt (A.entry 0 0)
      let column := Vector.ofFn fun i : Fin n => A.entry i.succ 0 / root
      match cholesky? (A.schurComplement column) with
      | none => none
      | some L =>
        some (ofFn fun i j =>
          Fin.cases (Fin.cases root (fun _ => 0) j)
            (fun i => Fin.cases (column.get i) (fun j => L.entry i j) j) i)

end BundleAdjustment.Mat
