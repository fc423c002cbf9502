import BundleAdjustment.Vec

/-! # Matrices

Matrices of fixed size over a scalar, stored by rows.
-/

namespace BundleAdjustment

structure Mat (m n : Nat) (α : Type) where
  rowVectors : Vector (Vector α n) m

/-- Positions in matrices are written as numerals, which the sizes admit as they are not zero. -/
instance (priority := 2000) neZero_succ (n : Nat) : @NeZero Nat Zero.ofOfNat0 (n + 1) := ⟨Nat.succ_ne_zero n⟩

instance (priority := 3000) neZero_three : @NeZero Nat Zero.ofOfNat0 3 := neZero_succ 2

instance (priority := 3000) neZero_four : @NeZero Nat Zero.ofOfNat0 4 := neZero_succ 3

namespace Mat

variable {m n k : Nat} {α β : Type}

def ofFn (f : Fin m → Fin n → α) : Mat m n α := ⟨Vector.ofFn fun i => Vector.ofFn fun j => f i j⟩

def entry (A : Mat m n α) (i : Fin m) (j : Fin n) : α := A.rowVectors[i][j]

@[simp] theorem entry_ofFn (f : Fin m → Fin n → α) (i : Fin m) (j : Fin n) :
    (ofFn f).entry i j = f i j := by
  simp [ofFn, entry]

def rows (A : Mat m n α) : List (List α) := (A.rowVectors.map Vector.toList).toList

def ofRows? (m n : Nat) (rows : List (List α)) : Option (Mat m n α) := do
  let vectors ← rows.mapM fun r => if h : r.toArray.size = n then some ⟨r.toArray, h⟩ else none
  if h : vectors.toArray.size = m then some ⟨⟨vectors.toArray, h⟩⟩ else none

def map (f : α → β) (A : Mat m n α) : Mat m n β := ⟨A.rowVectors.map fun r => r.map f⟩

def transpose (A : Mat m n α) : Mat n m α := ofFn fun i j => A.entry j i

variable [Scalar α]

def identity (n : Nat) : Mat n n α := ofFn fun i j => if i = j then 1 else 0

def scale (A : Mat m n α) (c : α) : Mat m n α := A.map (· * c)

def mulList (A : Mat m n α) (v : List α) : List α := A.rows.map fun r => Scalar.dot r v

def mul (A : Mat m n α) (B : Mat n k α) : Mat m k α :=
  ofFn fun i j => Scalar.sum ((List.finRange n).map fun l => A.entry i l * B.entry l j)

def mulVec (A : Mat 3 3 α) (v : Vec3 α) : Vec3 α :=
  let row := fun i : Fin 3 => A.entry i 0 * v.x + A.entry i 1 * v.y + A.entry i 2 * v.z
  ⟨row 0, row 1, row 2⟩

/-- The skew-symmetric matrix of the cross product with `v`. -/
def cross (v : Vec3 α) : Mat 3 3 α :=
  ⟨#v[#v[0, -v.z, v.y], #v[v.z, 0, -v.x], #v[-v.y, v.x, 0]]⟩

def det (A : Mat 3 3 α) : α :=
  A.entry 0 0 * (A.entry 1 1 * A.entry 2 2 - A.entry 1 2 * A.entry 2 1)
    - A.entry 0 1 * (A.entry 1 0 * A.entry 2 2 - A.entry 1 2 * A.entry 2 0)
    + A.entry 0 2 * (A.entry 1 0 * A.entry 2 1 - A.entry 1 1 * A.entry 2 0)

def trace (A : Mat 3 3 α) : α := A.entry 0 0 + A.entry 1 1 + A.entry 2 2

end Mat

end BundleAdjustment
