import BundleAdjustment.Camera.Points
import BundleAdjustment.Field
import BundleAdjustment.NumArray
import BundleAdjustment.Pose.OfMatrix
import BundleAdjustment.Pose.Similarity
import BundleAdjustment.Rotation.LogMap
import BundleAdjustment.Rotation.Unit

/-! # Reading motions

Motions and similarities from records of fields, from rotation vectors or quaternions, and from matrices.
-/

namespace BundleAdjustment

def Vec2.ofDatum (name : String) (d : Datum) : Except Fault (Vec2 Float) := do
  let a ← NumArray.ofDatum d
  match Vec2.ofList? a.entries with
  | some v => pure v
  | none => throw (.vectorSize name 2 a.size)

def Vec3.ofDatum (name : String) (d : Datum) : Except Fault (Vec3 Float) := do
  let a ← NumArray.ofDatum d
  match Vec3.ofList? a.entries with
  | some v => pure v
  | none => throw (.vectorSize name 3 a.size)

def Quat.ofDatum (name : String) (d : Datum) : Except Fault (Quat Float) := do
  let a ← NumArray.ofDatum d
  match Quat.ofList? a.entries with
  | some q => pure q
  | none => throw (.vectorSize name 4 a.size)

namespace Similarity

def checkScale (scale : Float) : Except Fault Float :=
  if isScale scale then pure scale else throw (.scaleNotPositive scale)

/-- Accepts a similarity whose scale may be one. -/
def checked (T : Similarity Float) : Except Fault (Similarity Float) := do
  let _ ← (checkScale T.scale).mapError (Fault.inField "scale")
  pure T

def ofFields (d : Datum) : Except Fault (Similarity Float) :=
  let fields := Similarity.mk
    <$> Field.required d "rotation" (Quat.ofDatum "rotation")
    <*> Field.required d "translation" (Vec3.ofDatum "translation")
    <*> Field.withDefault d "scale" 1 fun scale => do checkScale (← Field.float scale)
  fields.outcome

end Similarity

def Rigid.ofFields (d : Datum) : Except Fault (Rigid Float) :=
  let fields := Rigid.mk
    <$> Field.required d "rotation" (Quat.ofDatum "rotation")
    <*> Field.required d "translation" (Vec3.ofDatum "translation")
  fields.outcome

/-- The quadruples of a list, if its length is a multiple of four. -/
def Quat.quadruples? {α : Type} : List α → Option (List (Quat α))
  | [] => some []
  | x :: y :: z :: w :: rest => (quadruples? rest).map (⟨x, y, z, w⟩ :: ·)
  | _ => none

/-- The rotations of an array of any shape whose last dimension runs over the coordinates of rotation vectors. -/
def rotationsOfVectors (d : Datum) : Except Fault (List (Quat Float)) := do
  let a ← NumArray.ofDatum d
  match a.shape.getLast?, Vec3.triples? a.entries with
  | some 3, some vs => pure (vs.map Quat.exp)
  | _, _ => throw .unreadable

/-- Only machine numbers make up quaternions. In an array of more than two dimensions, numerals are read before they
are refused. -/
def checkComponents (dimensions : Nat) (leaves : List Datum) : Except Fault Unit := do
  if leaves.any Datum.isBoxed then throw (if dimensions < 3 then .unreadable else .wrongKind)
  if leaves.any Datum.isText then
    if dimensions < 3 || leaves.any Datum.isBool then throw .unreadable
    let _ ← leaves.mapM NumArray.entryOf
    throw .wrongKind

/-- The rotations of an array of any shape whose last dimension runs over the components of quaternions, which may have
any length but zero. -/
def rotationsOfQuats (d : Datum) : Except Fault (List (Quat Float)) := do
  if d.isNull then throw .noSuchMember
  let shape ← NumArray.shapeOf d
  match shape.getLast? with
  | none => throw .outOfRange
  | some width => if width ≠ 4 then throw .unreadable
  checkComponents shape.length (NumArray.leaves d)
  match Quat.quadruples? (← NumArray.ofDatum d).entries with
  | some qs => if qs.any fun q => q.normSq == 0 then throw .unreadable else pure (qs.map Quat.normalize)
  | none => throw .unreadable

/-- The motion of one rotation and a translation, which may be absent. -/
def Rigid.ofRotations (rotations : List (Quat Float)) (translation : Datum) : Except Fault (Rigid Float) :=
  let rotation : Except Fault (Quat Float) := match rotations with
    | [q] => pure q
    | qs => throw (.vectorSize "rotation" 4 (4 * qs.length))
  let translation := match translation with
    | .null => pure Vec3.zero
    | d => Vec3.ofDatum "translation" d
  let fields := Rigid.mk
    <$> (⟨rotation.mapError (Fault.inField "rotation")⟩ : Validated (Quat Float))
    <*> (⟨translation.mapError (Fault.inField "translation")⟩ : Validated (Vec3 Float))
  fields.outcome

/-- Reads a matrix of three or four rows and four columns. -/
def Rigid.ofMatrixDatum (d : Datum) : Except Fault (Rigid Float) := do
  let a ← NumArray.ofDatum d
  let rows := a.rows?.getD []
  match Mat.ofRows? (0 + 3) 4 rows, Mat.ofRows? (1 + 3) 4 rows with
  | some A, _ => Rigid.ofMatrix A
  | _, some A => Rigid.ofMatrix A
  | none, none => throw (.poseMatrixShape a.shape)

end BundleAdjustment
