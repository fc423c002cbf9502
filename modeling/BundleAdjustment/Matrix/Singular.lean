import BundleAdjustment.Matrix

/-! # Singular directions

Three directions at right angles whose images under a matrix are at right angles too. They are found by turning two
directions at a time in their plane. Lengths are compared as quotients, so that images of very different lengths stay
apart from each other. The rotation nearest to a matrix takes each direction to that of its image.
-/

namespace BundleAdjustment

variable {α : Type} [Scalar α]

namespace Vec3

def extent (v : Vec3 α) : α :=
  v.toList.foldl (fun m x => if Scalar.lt m (Scalar.abs x) then Scalar.abs x else m) 0

/-- The norm, computed from coordinates of at most one. -/
def length (v : Vec3 α) : α :=
  let m := v.extent
  if Scalar.eq m 0 then 0 else (v.map (· / m)).norm * m

def direction (v : Vec3 α) : Vec3 α :=
  let m := v.extent
  if Scalar.eq m 0 then v else
    let u := v.map (· / m)
    u.map (· / u.norm)

end Vec3

/-- A direction with its image under a matrix. -/
structure Imaged (α : Type) where
  direction : Vec3 α
  image : Vec3 α

namespace Imaged

def scale (p : Imaged α) (c : α) : Imaged α := ⟨p.direction.scale c, p.image.scale c⟩

instance : Add (Imaged α) := ⟨fun p q => ⟨p.direction + q.direction, p.image + q.image⟩⟩
instance : Sub (Imaged α) := ⟨fun p q => ⟨p.direction - q.direction, p.image - q.image⟩⟩

/-- The tangent of the angle by which two directions turn so that their images come to stand at right angles. -/
def turn (p q : Imaged α) : α :=
  let cosine := p.image.direction.dot q.image.direction
  let a := p.image.length
  let b := q.image.length
  if Scalar.eq cosine 0 || Scalar.eq a 0 || Scalar.eq b 0 then 0 else
    let z := (b / a - a / b) / (2 * cosine)
    let size := Scalar.abs z
    let t := if Scalar.lt 1e100 size then 1 / (2 * size) else 1 / (size + Scalar.sqrt (1 + z * z))
    if Scalar.lt z 0 then -t else t

def straighten (p q : Imaged α) : Imaged α × Imaged α :=
  let t := turn p q
  let c := 1 / Scalar.sqrt (1 + t * t)
  (p.scale c - q.scale (c * t), p.scale (c * t) + q.scale c)

def sweep : Imaged α × Imaged α × Imaged α → Imaged α × Imaged α × Imaged α
  | (p, q, r) =>
    let (p, q) := straighten p q
    let (p, r) := straighten p r
    let (q, r) := straighten q r
    (p, q, r)

/-- The matrix that takes the first direction to that of its image. -/
def project (p : Imaged α) : Mat 3 3 α :=
  let u := p.image.direction
  let v := p.direction
  ⟨#v[#v[u.x * v.x, u.x * v.y, u.x * v.z], #v[u.y * v.x, u.y * v.y, u.y * v.z],
      #v[u.z * v.x, u.z * v.y, u.z * v.z]]⟩

/-- What stands at right angles to two directions, with what stands at right angles to their images. -/
def cross (p q : Imaged α) : Imaged α :=
  ⟨p.direction.cross q.direction, p.image.direction.cross q.image.direction⟩

def longest (p q r : Imaged α) : Imaged α × Imaged α :=
  let (p, q) := if Scalar.lt p.image.length q.image.length then (q, p) else (p, q)
  if Scalar.lt q.image.length r.image.length then (p, r) else (p, q)

end Imaged

namespace Mat

def axes (A : Mat 3 3 α) : Imaged α × Imaged α × Imaged α :=
  let column := fun j : Fin 3 => (⟨A.entry 0 j, A.entry 1 j, A.entry 2 j⟩ : Vec3 α)
  (⟨⟨1, 0, 0⟩, column 0⟩, ⟨⟨0, 1, 0⟩, column 1⟩, ⟨⟨0, 0, 1⟩, column 2⟩)

def plus (A B : Mat 3 3 α) : Mat 3 3 α := ofFn fun i j => A.entry i j + B.entry i j

/-- The rotation nearest to a matrix of positive determinant. The third direction follows from the two with the longest
images. Every sweep squares the cosines between images once they are small, so thirty are more than enough. -/
def nearestRotation (A : Mat 3 3 α) : Mat 3 3 α :=
  let size := A.rows.flatten.foldl (fun m x => if Scalar.lt m (Scalar.abs x) then Scalar.abs x else m) 0
  let (p, q, r) := (List.range 30).foldl (fun s _ => Imaged.sweep s) (A.map (· / size)).axes
  let (p, q) := Imaged.longest p q r
  (p.project.plus q.project).plus (p.cross q).project

end Mat

end BundleAdjustment
