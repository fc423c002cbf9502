import BundleAdjustment.Decimal.Places
import BundleAdjustment.Flushed
import BundleAdjustment.Pose.Fields

/-! # Transforms

A transform is a rigid motion or a similarity. The two kinds share their operations but are never composed with each
other. Points are rotated and rotations inverted in the arithmetic of the residual formulas.
-/

namespace BundleAdjustment

inductive Transform where
  | rigid (motion : Rigid Float)
  | similarity (motion : Similarity Float)

inductive Transform.Kind where
  | rigid
  | similarity

namespace Transform

/-- A rigid motion as a transform of either kind, of scale one. -/
def ofRigid (kind : Kind) (T : Rigid Float) : Transform :=
  match kind with
  | .rigid => rigid T
  | .similarity => similarity ⟨T.rotation, T.translation, 1⟩

def ofFields (kind : Kind) (d : Datum) : Except Fault Transform :=
  match kind with
  | .rigid => rigid <$> Rigid.ofFields d
  | .similarity => similarity <$> Similarity.ofFields d

def rotation : Transform → Quat Float
  | rigid T => T.rotation
  | similarity T => T.rotation

def translation : Transform → Vec3 Float
  | rigid T => T.translation
  | similarity T => T.translation

/-- Rotates a point in the arithmetic of the residual formulas. -/
def rotate (q : Quat Float) (p : Vec3 Float) : Vec3 Float :=
  ((q.map Flushed.mk).rotate (p.map Flushed.mk)).map Flushed.value

/-- The motion that takes a transform back, but for its scale. -/
def inverseMotion (T : Transform) : Rigid Float :=
  (Rigid.inverse ⟨T.rotation.map Flushed.mk, T.translation.map Flushed.mk⟩).map Flushed.value

def inverse : Transform → Except Fault Transform
  | rigid T => pure (rigid (rigid T).inverseMotion)
  | similarity T => similarity <$> (Similarity.ofInverseMotion (similarity T).inverseMotion T.scale).checked

def apply : Transform → Vec3 Float → Vec3 Float
  | rigid T => T.applyBy rotate
  | similarity T => T.applyBy rotate

def compose : Transform → Transform → Except Fault Transform
  | rigid S, rigid T => pure (rigid (S.composeBy rotate T))
  | similarity S, similarity T => similarity <$> (S.composeBy rotate T).checked
  | _, _ => throw .wrongKind

def applyAll : Transform → List (Vec3 Float) → List (Vec3 Float)
  | rigid T => T.applyAll
  | similarity T => T.applyAll

/-- Maps the points of an array of any shape whose last dimension runs over coordinates. -/
def applyArray (T : Transform) (d : Datum) : Except Fault NumArray := do
  let a ← NumArray.ofDatum d
  match a.shape.getLast?, Vec3.triples? a.entries with
  | some 3, some points => pure ⟨a.shape, points.flatMap fun p => (T.apply p).toList⟩
  | some 2, _ => throw .wrongKind
  | _, _ => throw .unreadable

/-- Maps points given in rows, or one after the other. -/
def applyRows (T : Transform) (d : Datum) : Except Fault (List (Vec3 Float)) := do
  let a ← NumArray.ofDatum d
  match Vec3.triples? a.entries with
  | some points => pure (T.applyAll points)
  | none => throw .unreadable

/-- The matrix of a rigid motion; similarities have none. -/
def toMatrix : Transform → Except Fault (Mat 3 4 Float)
  | rigid T => pure T.toMatrix
  | similarity _ => throw .noSuchMember

def numbersText (xs : List Float) : String :=
  "[" ++ ", ".intercalate (xs.map fun x => Decimal.shortest (Decimal.sixPlaces x)) ++ "]"

def rigidText (T : Rigid Float) : String :=
  "Rigid3d(rotation_xyzw=" ++ numbersText T.rotation.toList ++ ", translation="
    ++ numbersText T.translation.toList ++ ")"

/-- Why an entry of a field cannot be overwritten: the arrays are read-only, and the scale has no entries. -/
def overwriteFault : Transform → String → Fault
  | _, "rotation" | _, "translation" => .unreadable
  | similarity _, "scale" => .wrongKind
  | _, _ => .noSuchMember

/-- Fields are never assigned. -/
def assignFault (field : String) : Fault := .invalid [⟨[field], .frozen⟩]

end Transform

end BundleAdjustment
