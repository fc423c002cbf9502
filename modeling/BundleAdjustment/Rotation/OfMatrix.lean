import BundleAdjustment.Rotation.Quaternion

/-! # Quaternions from matrices

A rotation matrix is read by the formula of its largest component. Matrices that are orthogonal up to rounding are told
from all others.
-/

namespace BundleAdjustment

namespace Mat

variable {α : Type} [Scalar α]

/-- `A Aᵀ` agrees with the identity: entries are compared with an absolute tolerance of `1e-12`, and a relative
one of `1e-5` on the diagonal. -/
def isOrthogonal (A : Mat 3 3 α) : Bool :=
  let G := A.mul A.transpose
  (List.finRange 3).all fun i => (List.finRange 3).all fun j =>
    let target : α := if i = j then 1 else 0
    !Scalar.lt (1e-12 + 1e-5 * target) (Scalar.abs (G.entry i j - target))

end Mat

namespace Quat

variable {α : Type} [Scalar α]

/-- The position of the largest of four numbers, the first one on ties. -/
def largest (a b c d : α) : Fin 4 :=
  let better := fun (best : Fin 4 × α) (next : Fin 4 × α) =>
    if Scalar.lt best.2 next.2 then next else best
  ([(1, b), (2, c), (3, d)].foldl better (0, a)).1

/-- Reads a rotation matrix. The component computed from the largest of the diagonal and the trace is never
small, so the division by the length is safe. -/
def ofRotationMatrix (A : Mat 3 3 α) : Quat α :=
  let t := A.trace
  let q : Quat α := match largest (A.entry 0 0) (A.entry 1 1) (A.entry 2 2) t with
    | 0 => ⟨1 - t + 2 * A.entry 0 0, A.entry 1 0 + A.entry 0 1, A.entry 2 0 + A.entry 0 2,
            A.entry 2 1 - A.entry 1 2⟩
    | 1 => ⟨A.entry 0 1 + A.entry 1 0, 1 - t + 2 * A.entry 1 1, A.entry 2 1 + A.entry 1 2,
            A.entry 0 2 - A.entry 2 0⟩
    | 2 => ⟨A.entry 0 2 + A.entry 2 0, A.entry 1 2 + A.entry 2 1, 1 - t + 2 * A.entry 2 2,
            A.entry 1 0 - A.entry 0 1⟩
    | 3 => ⟨A.entry 2 1 - A.entry 1 2, A.entry 0 2 - A.entry 2 0, A.entry 1 0 - A.entry 0 1, 1 + t⟩
  q.normalize

end Quat

end BundleAdjustment
