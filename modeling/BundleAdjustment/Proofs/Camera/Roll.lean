import BundleAdjustment.Proofs.Camera.Nesting

/-! # Rolled cameras

When a camera rolls about its optical axis, the image turns about the principal point, provided that no parameter of the
model prefers a direction: radii, angles and the branches that they choose stay the same, and everything else is a
multiple of the point.
-/

namespace BundleAdjustment

/-- The point turned about the origin by the angle of cosine `c` and sine `s`. -/
def Vec2.turn (c s : ℝ) (p : Vec2 ℝ) : Vec2 ℝ := ⟨c * p.x - s * p.y, s * p.x + c * p.y⟩

def Vec3.roll (c s : ℝ) (p : Vec3 ℝ) : Vec3 ℝ := ⟨c * p.x - s * p.y, s * p.x + c * p.y, p.z⟩

namespace Vec2

variable (c s : ℝ) (p q : Vec2 ℝ)

theorem add_mk_zero : p + ⟨0, 0⟩ = p := by
  ext <;> simp

theorem turn_add : (p + q).turn c s = p.turn c s + q.turn c s := by
  ext <;> simp [turn] <;> ring

theorem turn_scale (a : ℝ) : (p.scale a).turn c s = (p.turn c s).scale a := by
  ext <;> simp [turn, scale] <;> ring

end Vec2

section Distortion

variable (c s share : ℝ) (p : Vec2 ℝ)

theorem stretch_turn : stretch (p.turn c s) share = (stretch p share).turn c s := by
  ext <;> simp [stretch, Vec2.turn] <;> ring

/-- Without decentering the displacement is a multiple of the point. -/
theorem displacement_zero_zero : displacement share 0 0 p = p.scale share := by
  ext <;> simp [displacement, Vec2.scale]

theorem perspective_roll (p : Vec3 ℝ) : perspective (p.roll c s) = (perspective p).turn c s := by
  ext <;> simp only [perspective, Vec3.roll, Vec2.turn] <;> ring

end Distortion

section Circle

variable {c s : ℝ} (h : c ^ 2 + s ^ 2 = 1)

include h

theorem Vec2.turn_normSq (p : Vec2 ℝ) :
    (p.turn c s).x * (p.turn c s).x + (p.turn c s).y * (p.turn c s).y = p.x * p.x + p.y * p.y := by
  simp only [turn]
  linear_combination (p.x * p.x + p.y * p.y) * h

/-- The distance from the axis does not change, so that the same branch is taken, at the same angle. -/
theorem equidistant_roll (p : Vec3 ℝ) :
    equidistant (p.roll c s) = ((equidistant p).1.turn c s, (equidistant p).2) := by
  have hsq : (p.roll c s).x * (p.roll c s).x + (p.roll c s).y * (p.roll c s).y = p.x * p.x + p.y * p.y :=
    Vec2.turn_normSq h ⟨p.x, p.y⟩
  have hfar : equidistantFar (p.roll c s) = ((equidistantFar p).1.turn c s, (equidistantFar p).2) := by
    refine Prod.ext ?_ ?_
    · simp only [equidistantFar, hsq]
      ext <;> simp only [Vec3.roll, Vec2.turn] <;> ring
    · simp only [equidistantFar, hsq]
      rfl
  rw [equidistant_eq, equidistant_eq, hsq, hfar, perspective_roll]
  split <;> rfl

end Circle

namespace CameraModel

section Parameters

variable {α : Type} [Scalar α] (m : CameraModel) (k : Block α)

/-- The parameter of a name, zero in a model that has no such parameter. -/
def parameter (name : String) : α := (m.parameterNames.idxOf? name).elim 0 k.entry

def principalPoint : Vec2 α := ⟨m.parameter k "cx", m.parameter k "cy"⟩

theorem principalPoint_eq :
    m.principalPoint k = if m.hasSingleFocal then ⟨k.entry 1, k.entry 2⟩ else ⟨k.entry 2, k.entry 3⟩ := by
  cases m <;> rfl

end Parameters

/-- No parameter prefers a direction: the focal lengths of the axes agree, where there are two of them, and there are no
tangential and no prism coefficients but zero. -/
structure IsRadial (m : CameraModel) (k : Block ℝ) : Prop where
  focal : m.parameter k "fx" = m.parameter k "fy"
  tangential : m.parameter k "p1" = 0 ∧ m.parameter k "p2" = 0
  prism : m.parameter k "sx1" = 0 ∧ m.parameter k "sy1" = 0

variable {m : CameraModel} {k : Block ℝ}

theorem parameter_of_absent {name : String} (h : m.parameterNames.idxOf? name = none) : m.parameter k name = 0 := by
  simp [parameter, h]

/-- The models with one focal length have no parameter that could prefer a direction. -/
theorem isRadial_of_hasSingleFocal (hm : m.hasSingleFocal) : m.IsRadial k := by
  cases m
  case simplePinhole | simpleRadial | radial | simpleRadialFisheye | radialFisheye =>
    exact ⟨rfl, ⟨parameter_of_absent rfl, parameter_of_absent rfl⟩, parameter_of_absent rfl, parameter_of_absent rfl⟩
  all_goals exact absurd hm Bool.false_ne_true

/-- The models with two focal lengths and nothing but radial coefficients. -/
theorem isRadial_of_entry_eq (hm : m ∈ [pinhole, fov, openCVFisheye]) (hfocal : k.entry 0 = k.entry 1) :
    m.IsRadial k := by
  simp only [List.mem_cons, List.not_mem_nil, or_false] at hm
  rcases hm with rfl | rfl | rfl
  all_goals
    exact ⟨hfocal, ⟨parameter_of_absent rfl, parameter_of_absent rfl⟩, parameter_of_absent rfl, parameter_of_absent rfl⟩

theorem IsRadial.entry_one (hk : m.IsRadial k) (hm : ¬ m.hasSingleFocal) : k.entry 1 = k.entry 0 := by
  have hfocal := hk.focal
  cases m
  case simplePinhole | simpleRadial | radial | simpleRadialFisheye | radialFisheye => exact absurd rfl hm
  all_goals exact hfocal.symm

/-- Off the principal point both coordinates are multiplied by the focal length. -/
theorem toPixels_sub_principalPoint (hk : m.IsRadial k) (p : Vec2 ℝ) :
    m.toPixels k p - m.principalPoint k = p.scale (k.entry 0) := by
  rw [toPixels, principalPoint_eq]
  split
  · ext <;> simp [Vec2.scale] <;> ring
  · rename_i hm
    rw [hk.entry_one hm]
    ext <;> simp [Vec2.scale] <;> ring

/-- The distorted point turns with the point of the camera frame. -/
theorem distort_roll {c s : ℝ} (h : c ^ 2 + s ^ 2 = 1) (hk : m.IsRadial k) (p : Vec3 ℝ) :
    m.distort k (p.roll c s) = (m.distort k p).turn c s := by
  obtain ⟨-, ⟨hp1, hp2⟩, hsx, hsy⟩ := hk
  cases m
  case simplePinhole | pinhole => exact perspective_roll ..
  case simpleRadial | radial => simp only [distort, perspective_roll, Vec2.turn_normSq h, stretch_turn]
  case fov => simp only [distort, perspective_roll, Vec2.turn_normSq h, Vec2.turn_scale]
  case openCVFisheye | simpleRadialFisheye | radialFisheye => simp only [distort, equidistant_roll h, stretch_turn]
  case openCV | fullOpenCV =>
    have h6 : k.entry 6 = 0 := hp1
    have h7 : k.entry 7 = 0 := hp2
    simp only [distort, h6, h7, perspective_roll, Vec2.turn_normSq h, displacement_zero_zero, Vec2.turn_add,
      Vec2.turn_scale]
  case thinPrismFisheye =>
    have h6 : k.entry 6 = 0 := hp1
    have h7 : k.entry 7 = 0 := hp2
    have h10 : k.entry 10 = 0 := hsx
    have h11 : k.entry 11 = 0 := hsy
    simp only [distort, h6, h7, h10, h11, equidistant_roll h, Vec2.turn_normSq h, displacement_zero_zero, zero_mul,
      Vec2.add_mk_zero, Vec2.turn_add, Vec2.turn_scale]

/-- The image of a camera that rolls about its optical axis turns about the principal point by the same angle, whenever
no parameter of the model prefers a direction. This is so for the models with one focal length, for three others once
their focal lengths agree, and for the rest if the tangential and prism coefficients vanish too. The divisors of the
formulas do not change, so that the image is defined before the roll where it is defined after it. -/
theorem project_roll {c s : ℝ} (h : c ^ 2 + s ^ 2 = 1) (m : CameraModel) (k : Block ℝ) :
    (m.hasSingleFocal → m.IsRadial k) ∧
      (m ∈ [pinhole, fov, openCVFisheye] → k.entry 0 = k.entry 1 → m.IsRadial k) ∧
      (m.IsRadial k → ∀ p : Vec3 ℝ,
        m.project k (p.roll c s) - m.principalPoint k = (m.project k p - m.principalPoint k).turn c s) := by
  refine ⟨isRadial_of_hasSingleFocal, isRadial_of_entry_eq, fun hk p => ?_⟩
  rw [project, project, toPixels_sub_principalPoint hk, toPixels_sub_principalPoint hk, distort_roll h hk,
    Vec2.turn_scale]

/-- A fisheye camera with all of its coefficients, and a point beside and behind it. -/
theorem project_roll_wide :
    (3 / 5 : ℝ) ^ 2 + (4 / 5) ^ 2 = 1 ∧ thinPrismFisheye.IsRadial [500, 500, 320, 240, 1, 2, 0, 0, 3, 4, 0, 0] ∧
      thinPrismFisheye.project [500, 500, 320, 240, 1, 2, 0, 0, 3, 4, 0, 0] (⟨-7 / 5, 24 / 5, -1⟩ : Vec3 ℝ) -
          ⟨320, 240⟩ =
        (thinPrismFisheye.project [500, 500, 320, 240, 1, 2, 0, 0, 3, 4, 0, 0] (⟨3, 4, -1⟩ : Vec3 ℝ) - ⟨320, 240⟩).turn
          (3 / 5) (4 / 5) := by
  have h : (3 / 5 : ℝ) ^ 2 + (4 / 5) ^ 2 = 1 := by norm_num
  have hk : thinPrismFisheye.IsRadial [500, 500, 320, 240, 1, 2, 0, 0, 3, 4, 0, 0] := ⟨rfl, ⟨rfl, rfl⟩, rfl, rfl⟩
  have hroll : Vec3.roll (3 / 5) (4 / 5) ⟨3, 4, -1⟩ = ⟨-7 / 5, 24 / 5, -1⟩ := by
    ext <;> norm_num [Vec3.roll]
  exact ⟨h, hk, hroll ▸ (project_roll h thinPrismFisheye _).2.2 hk ⟨3, 4, -1⟩⟩

end CameraModel

end BundleAdjustment
