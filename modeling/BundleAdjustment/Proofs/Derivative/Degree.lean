import Mathlib
import BundleAdjustment.Proofs.Derivative.Blocks

/-! # Degrees of formulas

While one number moves, a formula of sums and products is a polynomial of the step. Its constant coefficient is the value
of the formula over dual numbers and its linear one the slope, and its degree is bounded by the usual rules. Up to degree
two, the central difference over any step is the slope.
-/

namespace BundleAdjustment

open Polynomial

/-- The function is a polynomial of at most the given degree that begins with value and slope of the dual number. -/
def Dual.HasDegree (n : ℕ) (f : ℝ → ℝ) (d : Dual ℝ) : Prop :=
  ∃ P : ℝ[X], P.natDegree ≤ n ∧ f = (fun t => P.eval t) ∧ d = ⟨P.coeff 0, P.coeff 1⟩

structure Vec3.HasDegree (n : ℕ) (f : ℝ → Vec3 ℝ) (d : Vec3 (Dual ℝ)) : Prop where
  x : Dual.HasDegree n (fun t => (f t).x) d.x
  y : Dual.HasDegree n (fun t => (f t).y) d.y
  z : Dual.HasDegree n (fun t => (f t).z) d.z

structure Quat.HasDegree (n : ℕ) (f : ℝ → Quat ℝ) (d : Quat (Dual ℝ)) : Prop where
  x : Dual.HasDegree n (fun t => (f t).x) d.x
  y : Dual.HasDegree n (fun t => (f t).y) d.y
  z : Dual.HasDegree n (fun t => (f t).z) d.z
  w : Dual.HasDegree n (fun t => (f t).w) d.w

inductive Block.HasDegree (n : ℕ) : (ℝ → Block ℝ) → Block (Dual ℝ) → Prop
  | nil : HasDegree n (fun _ => []) []
  | cons {f : ℝ → ℝ} {d : Dual ℝ} {F : ℝ → Block ℝ} {D : Block (Dual ℝ)} :
    Dual.HasDegree n f d → HasDegree n F D → HasDegree n (fun t => f t :: F t) (d :: D)

namespace Dual.HasDegree

variable {m n : ℕ} {f g : ℝ → ℝ} {d d' : Dual ℝ}

theorem mono (hf : HasDegree m f d) (h : m ≤ n) : HasDegree n f d := by
  obtain ⟨P, hdegree, hP⟩ := hf
  exact ⟨P, hdegree.trans h, hP⟩

theorem const (c : ℝ) : HasDegree n (fun _ => c) (Dual.const c) := by
  refine ⟨C c, ?_, funext fun t => eval_C.symm, Dual.ext coeff_C_zero.symm ?_⟩
  · rw [natDegree_C]
    exact n.zero_le
  · simp [Dual.const, coeff_C_succ]

theorem numeral (k : ℕ) : HasDegree n (fun _ => @OfNat.ofNat ℝ k (Scalar.instOfNatScalar k))
    (@OfNat.ofNat (Dual ℝ) k (Scalar.instOfNatScalar k)) := const _

/-- A number that moves with the step. -/
theorem moving (x : ℝ) : HasDegree 1 (fun t => x + t) (Dual.moving x) := by
  refine ⟨X + C x, (natDegree_X_add_C x).le, funext fun t => ?_, Dual.ext ?_ ?_⟩
  · rw [eval_add, eval_X, eval_C, add_comm]
  · simp [Dual.moving]
  · simp [Dual.moving, coeff_C_succ]

theorem add (hf : HasDegree n f d) (hg : HasDegree n g d') : HasDegree n (fun t => f t + g t) (d + d') := by
  obtain ⟨P, hP, rfl, rfl⟩ := hf
  obtain ⟨Q, hQ, rfl, rfl⟩ := hg
  exact ⟨P + Q, natDegree_add_le_of_degree_le hP hQ, funext fun t => eval_add.symm,
    Dual.ext (coeff_add ..).symm (coeff_add ..).symm⟩

theorem sub (hf : HasDegree n f d) (hg : HasDegree n g d') : HasDegree n (fun t => f t - g t) (d - d') := by
  obtain ⟨P, hP, rfl, rfl⟩ := hf
  obtain ⟨Q, hQ, rfl, rfl⟩ := hg
  exact ⟨P - Q, (natDegree_sub_le_of_le hP hQ).trans (max_self n).le, funext fun t => (eval_sub ..).symm,
    Dual.ext (coeff_sub ..).symm (coeff_sub ..).symm⟩

/-- The degrees of the factors add up. -/
theorem mul (hf : HasDegree m f d) (hg : HasDegree n g d') : HasDegree (m + n) (fun t => f t * g t) (d * d') := by
  obtain ⟨P, hP, rfl, rfl⟩ := hf
  obtain ⟨Q, hQ, rfl, rfl⟩ := hg
  refine ⟨P * Q, natDegree_mul_le_of_le hP hQ, funext fun t => (eval_mul ..).symm, Dual.ext (mul_coeff_zero ..).symm ?_⟩
  rw [Dual.slope_mul, mul_coeff_one, add_comm]

/-- The quadratic coefficient drops out of the central difference. -/
theorem central_difference (hf : HasDegree 2 f d) {h : ℝ} (hne : h ≠ 0) : (f h - f (-h)) / (2 * h) = d.slope := by
  obtain ⟨P, hP, rfl, rfl⟩ := hf
  have heval (t : ℝ) : P.eval t = P.coeff 0 + P.coeff 1 * t + P.coeff 2 * t ^ 2 := by
    rw [eval_eq_sum_range' (Nat.lt_succ_of_le hP)]
    simp [Finset.sum_range_succ]
  simp only [heval]
  field_simp
  ring

end Dual.HasDegree

namespace Vec3.HasDegree

variable {m n : ℕ} {f g : ℝ → Vec3 ℝ} {d d' : Vec3 (Dual ℝ)} {c : ℝ → ℝ} {b : Dual ℝ}

theorem mono (hf : HasDegree m f d) (h : m ≤ n) : HasDegree n f d := ⟨hf.x.mono h, hf.y.mono h, hf.z.mono h⟩

theorem const (v : Vec3 ℝ) : HasDegree n (fun _ => v) (v.map Dual.const) := ⟨.const v.x, .const v.y, .const v.z⟩

theorem add (hf : HasDegree n f d) (hg : HasDegree n g d') : HasDegree n (fun t => f t + g t) (d + d') :=
  ⟨hf.x.add hg.x, hf.y.add hg.y, hf.z.add hg.z⟩

theorem sub (hf : HasDegree n f d) (hg : HasDegree n g d') : HasDegree n (fun t => f t - g t) (d - d') :=
  ⟨hf.x.sub hg.x, hf.y.sub hg.y, hf.z.sub hg.z⟩

theorem scale (hf : HasDegree m f d) (hc : Dual.HasDegree n c b) :
    HasDegree (m + n) (fun t => (f t).scale (c t)) (d.scale b) :=
  ⟨hf.x.mul hc, hf.y.mul hc, hf.z.mul hc⟩

theorem cross (hf : HasDegree m f d) (hg : HasDegree n g d') :
    HasDegree (m + n) (fun t => (f t).cross (g t)) (d.cross d') where
  x := (hf.y.mul hg.z).sub (hf.z.mul hg.y)
  y := (hf.z.mul hg.x).sub (hf.x.mul hg.z)
  z := (hf.x.mul hg.y).sub (hf.y.mul hg.x)

end Vec3.HasDegree

/-- The quaternion enters a rotation twice, and the point once. -/
theorem Quat.HasDegree.rotate {m n : ℕ} {f : ℝ → Quat ℝ} {d : Quat (Dual ℝ)} {v : ℝ → Vec3 ℝ} {u : Vec3 (Dual ℝ)}
    (hf : Quat.HasDegree m f d) (hv : Vec3.HasDegree n v u) :
    Vec3.HasDegree (m + (m + n)) (fun t => (f t).rotate (v t)) (d.rotate u) := by
  have hvec : Vec3.HasDegree m (fun t => (f t).vec) d.vec := ⟨hf.x, hf.y, hf.z⟩
  have hcross := hvec.cross hv
  have htwice := hcross.add hcross
  have hscaled := (htwice.scale hf.w).mono (Nat.add_comm (m + n) m).le
  exact ((hv.mono (by omega)).add hscaled).add (hvec.cross htwice)

namespace Block.HasDegree

variable {n : ℕ} {F : ℝ → Block ℝ} {D : Block (Dual ℝ)}

theorem entry (hF : HasDegree n F D) (i : ℕ) : Dual.HasDegree n (fun t => (F t).entry i) (D.entry i) := by
  induction hF generalizing i with
  | nil => exact .numeral 0
  | cons hx hF ih =>
    cases i with
    | zero => exact hx
    | succ i =>
      cases hF with
      | nil => simpa only [entry_singleton] using hx
      | cons hy hF => simpa only [entry_cons_cons] using ih i

theorem toQuat (hF : HasDegree n F D) : Quat.HasDegree n (fun t => (F t).toQuat) D.toQuat :=
  ⟨hF.entry 0, hF.entry 1, hF.entry 2, hF.entry 3⟩

theorem toVec3 (hF : HasDegree n F D) : Vec3.HasDegree n (fun t => (F t).toVec3) D.toVec3 :=
  ⟨hF.entry 0, hF.entry 1, hF.entry 2⟩

theorem mapIdx {g : ℕ → ℝ → ℝ → ℝ} {e : ℕ → ℝ → Dual ℝ} (h : ∀ i x, Dual.HasDegree n (g i x) (e i x))
    (b : Block ℝ) : HasDegree n (fun t => b.mapIdx fun i x => g i x t) (b.mapIdx e) := by
  induction b generalizing g e with
  | nil => exact .nil
  | cons x b ih =>
    simp only [List.mapIdx_cons]
    exact .cons (h 0 x) (ih fun i => h (i + 1))

theorem dot_const (hF : HasDegree n F D) (r : List ℝ) :
    Dual.HasDegree n (fun t => Scalar.dot r (F t)) (Scalar.dot (r.map Dual.const) D) := by
  induction hF generalizing r with
  | nil =>
    simp only [Scalar.dot, List.zipWith_nil_right]
    exact .numeral 0
  | cons hx _ ih =>
    cases r with
    | nil => exact .numeral 0
    | cons c r =>
      simp only [List.map_cons, Scalar.dot_cons]
      exact (((Dual.HasDegree.const (n := 0) c).mul hx).mono (Nat.zero_add n).le).add (ih r)

/-- Whitening keeps the degree. -/
theorem mulList (hF : HasDegree n F D) {k l : ℕ} (S : Mat k l ℝ) :
    HasDegree n (fun t => S.mulList (F t)) ((S.map Dual.const).mulList D) := by
  simp only [Mat.mulList, Mat.rows_map, List.map_map]
  induction S.rows with
  | nil => exact .nil
  | cons r rows ih => exact .cons (hF.dot_const r) ih

theorem central_difference (hF : HasDegree 2 F D) {h : ℝ} (hne : h ≠ 0) :
    (F h).zipWith (fun p m => (p - m) / (2 * h)) (F (-h)) = D.map Dual.slope := by
  induction hF with
  | nil => rfl
  | cons hx _ ih => rw [List.zipWith_cons_cons, hx.central_difference hne, ih, List.map_cons]

end Block.HasDegree

theorem Vec3.HasDegree.toList {n : ℕ} {f : ℝ → Vec3 ℝ} {d : Vec3 (Dual ℝ)} (hf : Vec3.HasDegree n f d) :
    Block.HasDegree n (fun t => (f t).toList) d.toList :=
  .cons hf.x (.cons hf.y (.cons hf.z .nil))

end BundleAdjustment
