import BundleAdjustment.Block
import BundleAdjustment.Camera.Model
import BundleAdjustment.Vec

/-! # Projection

A camera model takes a point in camera coordinates to the image in two steps: the point is brought to the normalized
image plane and distorted there, then focal lengths and principal point give pixels.
-/

namespace BundleAdjustment

def perspective {α : Type} [Scalar α] (point : Vec3 α) : Vec2 α := ⟨point.x / point.z, point.y / point.z⟩

/-- The equidistant image, whose distance from the center is the angle to the optical axis, together with that
angle. Within `1e-12` of the axis the perspective image replaces it, and the angle counts as zero. -/
def equidistant {α : Type} [Scalar α] (point : Vec3 α) : Vec2 α × α :=
  let radiusSq := point.x * point.x + point.y * point.y
  if Scalar.lt (1e-12 * 1e-12) radiusSq then
    let radius := Scalar.sqrt radiusSq
    let angle := Scalar.atan2 radius point.z
    (⟨angle * point.x / radius, angle * point.y / radius⟩, angle)
  else (perspective point, 0)

/-- The factor of the field-of-view model, `atan (2 r tan (ω / 2)) / (r ω)`, with series for small `ω` and for
small `r`. -/
def fovFactor {α : Type} [Scalar α] (omega radiusSq : α) : α :=
  let omegaSq := omega * omega
  if Scalar.lt omegaSq 1e-4 then 1 + omegaSq / 12 - radiusSq * omegaSq / 3
  else
    let tangent := Scalar.tan (omega / 2)
    if Scalar.lt radiusSq 1e-4 then
      -2 * tangent * (4 * radiusSq * tangent * tangent - 3) / (3 * omega)
    else
      let radius := Scalar.sqrt radiusSq
      Scalar.atan (2 * radius * tangent) / (radius * omega)

def stretch {α : Type} [Scalar α] (p : Vec2 α) (share : α) : Vec2 α := ⟨p.x + p.x * share, p.y + p.y * share⟩

/-- A share of the coordinates of the point, and the displacement by decentering of the lenses. -/
def displacement {α : Type} [Scalar α] (share p1 p2 : α) (p : Vec2 α) : Vec2 α :=
  let uu := p.x * p.x
  let vv := p.y * p.y
  let uv := p.x * p.y
  let rr := uu + vv
  ⟨p.x * share + 2 * p1 * uv + p2 * (rr + 2 * uu), p.y * share + 2 * p2 * uv + p1 * (rr + 2 * vv)⟩

namespace CameraModel

variable {α : Type} [Scalar α]

/-- The distorted point of the normalized image plane, for parameters `k`. -/
def distort (m : CameraModel) (k : Block α) (point : Vec3 α) : Vec2 α :=
  match m with
  | simplePinhole | pinhole => perspective point
  | simpleRadial =>
    let p := perspective point
    stretch p (k.entry 3 * (p.x * p.x + p.y * p.y))
  | radial =>
    let p := perspective point
    let rr := p.x * p.x + p.y * p.y
    stretch p (k.entry 3 * rr + k.entry 4 * rr * rr)
  | openCV =>
    let p := perspective point
    let rr := p.x * p.x + p.y * p.y
    p + displacement (k.entry 4 * rr + k.entry 5 * rr * rr) (k.entry 6) (k.entry 7) p
  | openCVFisheye =>
    let (p, angle) := equidistant point
    let a2 := angle * angle
    let a4 := a2 * a2
    stretch p (k.entry 4 * a2 + k.entry 5 * a4 + k.entry 6 * a4 * a2 + k.entry 7 * a4 * a4)
  | fullOpenCV =>
    let p := perspective point
    let r2 := p.x * p.x + p.y * p.y
    let r4 := r2 * r2
    let r6 := r4 * r2
    let ratio := (1 + k.entry 4 * r2 + k.entry 5 * r4 + k.entry 8 * r6)
      / (1 + k.entry 9 * r2 + k.entry 10 * r4 + k.entry 11 * r6)
    displacement ratio (k.entry 6) (k.entry 7) p
  | fov =>
    let p := perspective point
    p.scale (fovFactor (k.entry 4) (p.x * p.x + p.y * p.y))
  | simpleRadialFisheye =>
    let (p, angle) := equidistant point
    stretch p (k.entry 3 * angle * angle)
  | radialFisheye =>
    let (p, angle) := equidistant point
    let a2 := angle * angle
    stretch p (k.entry 3 * a2 + k.entry 4 * a2 * a2)
  | thinPrismFisheye =>
    let (p, _) := equidistant point
    let r2 := p.x * p.x + p.y * p.y
    let r4 := r2 * r2
    let r6 := r4 * r2
    let r8 := r4 * r4
    let radial := k.entry 4 * r2 + k.entry 5 * r4 + k.entry 8 * r6 + k.entry 9 * r8
    p + (displacement radial (k.entry 6) (k.entry 7) p + ⟨k.entry 10 * r2, k.entry 11 * r2⟩)

def hasSingleFocal : CameraModel → Bool
  | simplePinhole | simpleRadial | radial | simpleRadialFisheye | radialFisheye => true
  | _ => false

def toPixels (m : CameraModel) (k : Block α) (p : Vec2 α) : Vec2 α :=
  if m.hasSingleFocal then ⟨k.entry 0 * p.x + k.entry 1, k.entry 0 * p.y + k.entry 2⟩
  else ⟨k.entry 0 * p.x + k.entry 2, k.entry 1 * p.y + k.entry 3⟩

def project (m : CameraModel) (k : Block α) (point : Vec3 α) : Vec2 α := m.toPixels k (m.distort k point)

end CameraModel

end BundleAdjustment
