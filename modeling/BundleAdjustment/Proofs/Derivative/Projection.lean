import Mathlib
import BundleAdjustment.Proofs.Camera.Branches
import BundleAdjustment.Proofs.Derivative.Blocks

/-! # Tracked images

The image of a tracking point is tracked as long as no divisor of the camera model is zero and no bound between two
branches is met.
-/

namespace BundleAdjustment

/-- The point is off the bound of the perspective image, and not beside the camera if it is within. -/
structure EquidistantSmooth (p : Vec3 ℝ) : Prop where
  off_bound : p.x ^ 2 + p.y ^ 2 ≠ 1e-24
  depth_ne_zero : p.x ^ 2 + p.y ^ 2 < 1e-24 → p.z ≠ 0

/-- The angle and the radius are off the bounds of the series, and the tangent of half the angle is finite if it is
taken. -/
structure FovSmooth (omega radiusSq : ℝ) : Prop where
  omega_off_bound : omega ^ 2 ≠ 1e-4
  radius_off_bound : 1e-4 < omega ^ 2 → radiusSq ≠ 1e-4
  cos_ne_zero : 1e-4 < omega ^ 2 → Real.cos (omega / 2) ≠ 0

def radialDivisor {α : Type} [Scalar α] (k : Block α) (rr : α) : α :=
  1 + k.entry 9 * rr + k.entry 10 * (rr * rr) + k.entry 11 * (rr * rr * rr)

/-- The image of a model with intrinsics `k` has a derivative at `p`: no divisor is zero, and no bound is met. -/
def CameraModel.IsSmoothAt (camera : CameraModel) (k : Block ℝ) (p : Vec3 ℝ) : Prop :=
  let image := perspective p
  let rr := image.x * image.x + image.y * image.y
  match camera with
  | simplePinhole | pinhole | simpleRadial | radial | openCV => p.z ≠ 0
  | fullOpenCV => p.z ≠ 0 ∧ radialDivisor k rr ≠ 0
  | fov => p.z ≠ 0 ∧ FovSmooth (k.entry 4) rr
  | openCVFisheye | simpleRadialFisheye | radialFisheye | thinPrismFisheye => EquidistantSmooth p

variable {E : Type*} [NormedAddCommGroup E] [NormedSpace ℝ E] {a : E}

namespace Vec2.Tracks

variable {f : E → Vec2 ℝ} {d : E → Vec2 (Dual ℝ)} {c b₁ b₂ : E → ℝ} {e e₁ e₂ : E → Dual ℝ}

theorem normSq (hf : Tracks f d a) :
    Dual.Tracks (fun y => (f y).x * (f y).x + (f y).y * (f y).y) (fun e => (d e).x * (d e).x + (d e).y * (d e).y) a :=
  (hf.x.mul hf.x).add (hf.y.mul hf.y)

theorem stretch (hf : Tracks f d a) (hc : Dual.Tracks c e a) :
    Tracks (fun y => stretch (f y) (c y)) (fun v => stretch (d v) (e v)) a :=
  ⟨hf.x.add (hf.x.mul hc), hf.y.add (hf.y.mul hc)⟩

theorem displacement (hf : Tracks f d a) (hc : Dual.Tracks c e a) (h₁ : Dual.Tracks b₁ e₁ a)
    (h₂ : Dual.Tracks b₂ e₂ a) :
    Tracks (fun y => displacement (c y) (b₁ y) (b₂ y) (f y)) (fun v => displacement (e v) (e₁ v) (e₂ v) (d v)) a :=
  have huu := hf.x.mul hf.x
  have hvv := hf.y.mul hf.y
  have huv := hf.x.mul hf.y
  have hrr := huu.add hvv
  ⟨((hf.x.mul hc).add (((Dual.Tracks.numeral 2).mul h₁).mul huv)).add
      (h₂.mul (hrr.add ((Dual.Tracks.numeral 2).mul huu))),
    ((hf.y.mul hc).add (((Dual.Tracks.numeral 2).mul h₂).mul huv)).add
      (h₁.mul (hrr.add ((Dual.Tracks.numeral 2).mul hvv)))⟩

end Vec2.Tracks

namespace Vec3.Tracks

variable {f : E → Vec3 ℝ} {d : E → Vec3 (Dual ℝ)}

theorem perspective (hf : Tracks f d a) (hz : (f a).z ≠ 0) :
    Vec2.Tracks (fun y => perspective (f y)) (fun e => perspective (d e)) a :=
  ⟨hf.x.div hf.z hz, hf.y.div hf.z hz⟩

theorem equidistantFar (hf : Tracks f d a) (hpos : 0 < (f a).x * (f a).x + (f a).y * (f a).y) :
    Vec2.Tracks (fun y => (equidistantFar (f y)).1) (fun e => (equidistantFar (d e)).1) a ∧
      Dual.Tracks (fun y => (equidistantFar (f y)).2) (fun e => (equidistantFar (d e)).2) a := by
  have hne : √((f a).x * (f a).x + (f a).y * (f a).y) ≠ 0 := (Real.sqrt_pos.mpr hpos).ne'
  have hradius := ((hf.x.mul hf.x).add (hf.y.mul hf.y)).sqrt hpos.ne'
  have hangle := hradius.atan2 hf.z (.inr hne)
  exact ⟨⟨(hangle.mul hf.x).div hradius hne, (hangle.mul hf.y).div hradius hne⟩, hangle⟩

/-- The equidistant image and its angle, on either side of the bound. -/
theorem equidistant (hf : Tracks f d a) (hsmooth : EquidistantSmooth (f a)) :
    Vec2.Tracks (fun y => (equidistant (f y)).1) (fun e => (equidistant (d e)).1) a ∧
      Dual.Tracks (fun y => (equidistant (f y)).2) (fun e => (equidistant (d e)).2) a := by
  have hsq := (hf.x.mul hf.x).add (hf.y.mul hf.y)
  have hbound : Dual.Tracks (fun _ : E => (nearAxisSq : ℝ)) (fun _ => nearAxisSq) a :=
    (Dual.Tracks.scientific ..).mul (Dual.Tracks.scientific ..)
  have hoff : (nearAxisSq : ℝ) ≠ (f a).x * (f a).x + (f a).y * (f a).y := by
    rw [nearAxisSq_eq, ← pow_two, ← pow_two]
    exact hsmooth.off_bound.symm
  have hz (h : (f a).x * (f a).x + (f a).y * (f a).y < nearAxisSq) : (f a).z ≠ 0 :=
    hsmooth.depth_ne_zero (by rwa [nearAxisSq_eq, ← pow_two, ← pow_two] at h)
  have hfar (h : nearAxisSq < (f a).x * (f a).x + (f a).y * (f a).y) := hf.equidistantFar (nearAxisSq_pos.trans h)
  simp only [equidistant_eq, apply_ite Prod.fst, apply_ite Prod.snd]
  exact ⟨Vec2.Tracks.ite_lt hbound hsq hoff (fun h => (hfar h).1) fun h => hf.perspective (hz h),
    hbound.ite_lt hsq hoff (fun h => (hfar h).2) fun _ => .numeral 0⟩

end Vec3.Tracks

theorem Dual.Tracks.fovFactor {ω r : E → ℝ} {dω dr : E → Dual ℝ} (hω : Dual.Tracks ω dω a) (hr : Dual.Tracks r dr a)
    (hsmooth : FovSmooth (ω a) (r a)) :
    Dual.Tracks (fun y => fovFactor (ω y) (r y)) (fun e => fovFactor (dω e) (dr e)) a := by
  have hbound : Dual.Tracks (fun _ : E => (smallSq : ℝ)) (fun _ => smallSq) a := .scientific ..
  have hsq := hω.mul hω
  have homega : ω a * ω a ≠ smallSq := by
    rw [smallSq_eq, ← pow_two]
    exact hsmooth.omega_off_bound
  simp only [fovFactor_eq]
  refine hsq.ite_lt hbound homega (fun _ => ?_) fun hlarge => ?_
  · have hseries := (Dual.Tracks.numeral 1).add (hsq.div (.numeral 12) (by simp))
    exact hseries.sub ((hr.mul hsq).div (.numeral 3) (by simp))
  · have hlarge' : 1e-4 < ω a ^ 2 := by rwa [smallSq_eq, ← pow_two] at hlarge
    have hne : ω a ≠ 0 := by
      rintro h
      norm_num [h] at hlarge'
    have hcos : Real.cos (ω a / 2) ≠ 0 := hsmooth.cos_ne_zero hlarge'
    have htan := (hω.div (.numeral 2) (by simp)).tan (by simpa using hcos)
    have hradius : r a ≠ smallSq := by
      rw [smallSq_eq]
      exact hsmooth.radius_off_bound hlarge'
    refine hr.ite_lt hbound hradius (fun _ => ?_) fun hfar => ?_
    · have hcubic := ((((Dual.Tracks.numeral 4).mul hr).mul htan).mul htan).sub (.numeral 3)
      exact (((Dual.Tracks.numeral 2).neg.mul htan).mul hcubic).div ((Dual.Tracks.numeral 3).mul hω)
        (mul_ne_zero (by simp) hne)
    · have hpos : 0 < r a := by
        rw [smallSq_eq] at hfar
        exact lt_trans (by norm_num) hfar
      have hsqrt := hr.sqrt hpos.ne'
      exact (((Dual.Tracks.numeral 2).mul hsqrt).mul htan).atan.div (hsqrt.mul hω)
        (mul_ne_zero (Real.sqrt_pos.mpr hpos).ne' hne)

section Camera

variable {k : E → Block ℝ} {dk : E → Block (Dual ℝ)} {p : E → Vec3 ℝ} {dp : E → Vec3 (Dual ℝ)}

theorem CameraModel.tracks_distort (camera : CameraModel) (hk : Block.Tracks k dk a) (hp : Vec3.Tracks p dp a)
    (hsmooth : camera.IsSmoothAt (k a) (p a)) :
    Vec2.Tracks (fun y => camera.distort (k y) (p y)) (fun e => camera.distort (dk e) (dp e)) a := by
  cases camera with
  | simplePinhole => exact hp.perspective hsmooth
  | pinhole => exact hp.perspective hsmooth
  | simpleRadial =>
    have himage := hp.perspective hsmooth
    exact himage.stretch ((hk.entry 3).mul himage.normSq)
  | radial =>
    have himage := hp.perspective hsmooth
    have hrr := himage.normSq
    exact himage.stretch (((hk.entry 3).mul hrr).add (((hk.entry 4).mul hrr).mul hrr))
  | openCV =>
    have himage := hp.perspective hsmooth
    have hrr := himage.normSq
    exact himage.add (himage.displacement (((hk.entry 4).mul hrr).add (((hk.entry 5).mul hrr).mul hrr)) (hk.entry 6)
      (hk.entry 7))
  | openCVFisheye =>
    obtain ⟨himage, hangle⟩ := hp.equidistant hsmooth
    have h2 := hangle.mul hangle
    have h4 := h2.mul h2
    exact himage.stretch (((((hk.entry 4).mul h2).add ((hk.entry 5).mul h4)).add (((hk.entry 6).mul h4).mul h2)).add
      (((hk.entry 7).mul h4).mul h4))
  | fullOpenCV =>
    obtain ⟨hz, hdivisor⟩ := hsmooth
    have himage := hp.perspective hz
    have h2 := himage.normSq
    have h4 := h2.mul h2
    have h6 := h4.mul h2
    have hone := Dual.Tracks.numeral (a := a) 1
    have hratio := (((hone.add ((hk.entry 4).mul h2)).add ((hk.entry 5).mul h4)).add ((hk.entry 8).mul h6)).div
      (((hone.add ((hk.entry 9).mul h2)).add ((hk.entry 10).mul h4)).add ((hk.entry 11).mul h6)) hdivisor
    exact himage.displacement hratio (hk.entry 6) (hk.entry 7)
  | fov =>
    obtain ⟨hz, hfactor⟩ := hsmooth
    have himage := hp.perspective hz
    exact himage.scale ((hk.entry 4).fovFactor himage.normSq hfactor)
  | simpleRadialFisheye =>
    obtain ⟨himage, hangle⟩ := hp.equidistant hsmooth
    exact himage.stretch (((hk.entry 3).mul hangle).mul hangle)
  | radialFisheye =>
    obtain ⟨himage, hangle⟩ := hp.equidistant hsmooth
    have h2 := hangle.mul hangle
    exact himage.stretch (((hk.entry 3).mul h2).add (((hk.entry 4).mul h2).mul h2))
  | thinPrismFisheye =>
    obtain ⟨himage, -⟩ := hp.equidistant hsmooth
    have h2 := himage.normSq
    have h4 := h2.mul h2
    have h6 := h4.mul h2
    have h8 := h4.mul h4
    have hradial := ((((hk.entry 4).mul h2).add ((hk.entry 5).mul h4)).add ((hk.entry 8).mul h6)).add
      ((hk.entry 9).mul h8)
    have hprism : Vec2.Tracks (fun y => (⟨(k y).entry 10 * _, (k y).entry 11 * _⟩ : Vec2 ℝ))
      (fun e => ⟨(dk e).entry 10 * _, (dk e).entry 11 * _⟩) a := ⟨(hk.entry 10).mul h2, (hk.entry 11).mul h2⟩
    exact himage.add ((himage.displacement hradial (hk.entry 6) (hk.entry 7)).add hprism)

theorem CameraModel.tracks_toPixels (camera : CameraModel) (hk : Block.Tracks k dk a) {f : E → Vec2 ℝ}
    {d : E → Vec2 (Dual ℝ)} (hf : Vec2.Tracks f d a) :
    Vec2.Tracks (fun y => camera.toPixels (k y) (f y)) (fun e => camera.toPixels (dk e) (d e)) a := by
  cases hsingle : camera.hasSingleFocal with
  | true =>
    simp only [toPixels, hsingle, if_true]
    exact ⟨((hk.entry 0).mul hf.x).add (hk.entry 1), ((hk.entry 0).mul hf.y).add (hk.entry 2)⟩
  | false =>
    simp only [toPixels, hsingle, Bool.false_eq_true, if_false]
    exact ⟨((hk.entry 0).mul hf.x).add (hk.entry 2), ((hk.entry 1).mul hf.y).add (hk.entry 3)⟩

theorem CameraModel.tracks_project (camera : CameraModel) (hk : Block.Tracks k dk a) (hp : Vec3.Tracks p dp a)
    (hsmooth : camera.IsSmoothAt (k a) (p a)) :
    Vec2.Tracks (fun y => camera.project (k y) (p y)) (fun e => camera.project (dk e) (dp e)) a :=
  camera.tracks_toPixels hk (camera.tracks_distort hk hp hsmooth)

end Camera

end BundleAdjustment
