import BundleAdjustment.Matrix

/-! # Linear systems

Gaussian elimination with row pivoting. It fails exactly when a column of the remaining matrix has no pivot. The pivots
alone tell the orientation of a matrix.
-/

namespace BundleAdjustment.Mat

variable {n k : Nat} {α : Type} [Scalar α]

/-- The first row whose entry in column zero is largest in absolute value. -/
def pivotRow (A : Mat (n + 1) (n + 1) α) : Fin (n + 1) :=
  (List.finRange (n + 1)).foldl
    (fun p i => if Scalar.lt (Scalar.abs (A.entry p 0)) (Scalar.abs (A.entry i 0)) then i else p) 0

def swapWithFirst (A : Mat (n + 1) k α) (p : Fin (n + 1)) : Mat (n + 1) k α :=
  ofFn fun i j => A.entry (if i = 0 then p else if i = p then 0 else i) j

/-- The rows below the first, each reduced by a multiple of the first row. -/
def eliminateFirst (A : Mat (n + 1) k α) (factor : Vector α n) : Mat n k α :=
  ofFn fun i j => A.entry i.succ j - factor.get i * A.entry 0 j

def dropColumn (A : Mat n (k + 1) α) : Mat n k α := ofFn fun i j => A.entry i j.succ

/-- What multiple of the pivot an entry is. Of a pivot below the normal doubles the reciprocal may be infinite. -/
def multipleOf (pivot reciprocal x : α) : α :=
  if Scalar.lt (Scalar.abs pivot) 2.2250738585072014e-308 then x / pivot else x * reciprocal

/-- The pivots of the elimination, each with the sign of its row exchange. Their product is the determinant. After a
pivot that is zero there are no more. -/
def signedPivots : {n : Nat} → Mat n n α → List α
  | 0, _ => []
  | n + 1, A =>
    let p := A.pivotRow
    let B := A.swapWithFirst p
    let pivot := B.entry 0 0
    if Scalar.eq pivot 0 then [0] else
      let factor := Vector.ofFn fun i : Fin n => multipleOf pivot (1 / pivot) (B.entry i.succ 0)
      (if p = 0 then pivot else -pivot) :: signedPivots (B.eliminateFirst factor).dropColumn

/-- Solves `A * X = B`; `none` when `A` is singular. -/
def solve : {n : Nat} → Mat n n α → Mat n k α → Option (Mat n k α)
  | 0, _, B => some B
  | n + 1, A, B =>
    let p := A.pivotRow
    let A := A.swapWithFirst p
    let B := B.swapWithFirst p
    let pivot := A.entry 0 0
    if Scalar.eq pivot 0 then none else
    let reciprocal := 1 / pivot
    let factor := Vector.ofFn fun i : Fin n => multipleOf pivot reciprocal (A.entry i.succ 0)
    match solve (A.eliminateFirst factor).dropColumn (B.eliminateFirst factor) with
    | none => none
    | some X =>
      let top := Vector.ofFn fun j : Fin k =>
        (List.finRange n).foldr (fun i s => s - A.entry 0 i.succ * X.entry i j) (B.entry 0 j) * reciprocal
      some (ofFn fun i j => Fin.cases (top.get j) (fun i => X.entry i j) i)

def inverse? (A : Mat n n α) : Option (Mat n n α) := A.solve (identity n)

end BundleAdjustment.Mat
