import BundleAdjustment.Fault
import BundleAdjustment.Matrix.Inverse
import BundleAdjustment.Matrix.Singular
import BundleAdjustment.Pose.Rigid
import BundleAdjustment.Rotation.OfMatrix

/-! # Motions from matrices

The motion whose matrix is given. A left part that is not orthogonal stands for the rotation nearest to it.
-/

namespace BundleAdjustment

variable {α : Type} [Scalar α]

/-- The product of three numbers, the longest first with the shortest. It is zero or infinite only if it must be. -/
def balancedProduct (a b c : α) : α :=
  let isShorter := fun x y : α => Scalar.lt (Scalar.abs x) (Scalar.abs y)
  let (a, b) := if isShorter a b then (b, a) else (a, b)
  let (a, c) := if isShorter a c then (c, a) else (a, c)
  if isShorter b c then a * b * c else a * c * b

/-- By how much a matrix changes volumes, negative for one that turns left into right. -/
def Mat.volume (A : Mat 3 3 α) : α :=
  match A.signedPivots with
  | [a, b, c] => balancedProduct a b c
  | _ => 0

/-- Reflections and collapsing maps are refused. -/
def refuseUnlessPositive (x : α) : Except Fault Unit :=
  if Scalar.lt x 0 || Scalar.eq x 0 then throw .unreadable else pure ()

/-- The rotation of a matrix. An orthogonal one is read as it is; any other must have finite entries. -/
def Quat.ofMatrix (A : Mat 3 3 α) : Except Fault (Quat α) := do
  let isFinite := A.rows.all fun r => r.all Scalar.isFinite
  if isFinite && A.isOrthogonal then
    refuseUnlessPositive A.det
    pure (Quat.ofRotationMatrix A)
  else
    refuseUnlessPositive A.volume
    if isFinite then pure (Quat.ofRotationMatrix A.nearestRotation) else throw .noDecomposition

def Mat.rotationPart {m : Nat} (A : Mat (m + 3) 4 α) : Mat 3 3 α :=
  Mat.ofFn fun i j => A.entry ⟨i, by omega⟩ ⟨j, by omega⟩

def Mat.translationPart {m : Nat} (A : Mat (m + 3) 4 α) : Vec3 α :=
  let entry := fun i : Fin 3 => A.entry ⟨i, by omega⟩ 3
  ⟨entry 0, entry 1, entry 2⟩

/-- Reads a matrix of three rows, or one of four whose last row is not looked at. -/
def Rigid.ofMatrix {m : Nat} (A : Mat (m + 3) 4 α) : Except Fault (Rigid α) :=
  return ⟨← Quat.ofMatrix A.rotationPart, A.translationPart⟩

end BundleAdjustment
