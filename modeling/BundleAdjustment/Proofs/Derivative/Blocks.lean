import BundleAdjustment.Proofs.Cost.Formula
import BundleAdjustment.Proofs.Derivative.Geometry

/-! # Tracked blocks

A family of blocks of dual numbers tracks a family of blocks of the same length if its entries do. Formulas read
numbers, points and poses from blocks, and write their results to such blocks again.
-/

namespace BundleAdjustment

variable {E : Type*} [NormedAddCommGroup E] [NormedSpace ℝ E] {a : E}

inductive Block.Tracks : (E → Block ℝ) → (E → Block (Dual ℝ)) → E → Prop
  | nil {a : E} : Tracks (fun _ => []) (fun _ => []) a
  | cons {f : E → ℝ} {d : E → Dual ℝ} {F : E → Block ℝ} {D : E → Block (Dual ℝ)} {a : E} :
    Dual.Tracks f d a → Tracks F D a → Tracks (fun y => f y :: F y) (fun e => d e :: D e) a

namespace Block

section Entry

variable {α : Type} [Scalar α]

theorem entry_singleton (x : α) (i : ℕ) : entry [x] i = x := by
  cases i <;> rfl

theorem entry_cons_cons (x y : α) (b : Block α) (i : ℕ) : entry (x :: y :: b) (i + 1) = entry (y :: b) i := by
  simp [entry]

end Entry

namespace Tracks

variable {f g : E → Block ℝ} {d d' : E → Block (Dual ℝ)}

theorem const (b : Block ℝ) : Tracks (fun _ : E => b) (fun _ => b.map Dual.const) a := by
  induction b with
  | nil => exact .nil
  | cons x b ih => exact .cons (.const x) ih

theorem ofFn {n : ℕ} {x : Fin n → E → ℝ} {dx : Fin n → E → Dual ℝ} (h : ∀ i, Dual.Tracks (x i) (dx i) a) :
    Tracks (fun y => List.ofFn fun i => x i y) (fun e => List.ofFn fun i => dx i e) a := by
  induction n with
  | zero => simpa only [List.ofFn_zero] using nil
  | succ n ih =>
    simp only [List.ofFn_succ]
    exact .cons (h 0) (ih fun i => h i.succ)

theorem append (hf : Tracks f d a) (hg : Tracks g d' a) : Tracks (fun y => f y ++ g y) (fun e => d e ++ d' e) a := by
  induction hf with
  | nil => exact hg
  | cons hx _ ih => exact .cons hx (ih hg)

/-- Every entry is tracked, also past the end. -/
theorem entry (hf : Tracks f d a) (i : ℕ) : Dual.Tracks (fun y => (f y).entry i) (fun e => (d e).entry i) a := by
  induction hf generalizing i with
  | nil => exact .numeral 0
  | cons hx hF ih =>
    cases i with
    | zero => exact hx
    | succ i =>
      cases hF with
      | nil => simpa only [entry_singleton] using hx
      | cons hy hF => simpa only [entry_cons_cons] using ih i

theorem toQuat (hf : Tracks f d a) : Quat.Tracks (fun y => (f y).toQuat) (fun e => (d e).toQuat) a :=
  ⟨hf.entry 0, hf.entry 1, hf.entry 2, hf.entry 3⟩

theorem toVec3 (hf : Tracks f d a) : Vec3.Tracks (fun y => (f y).toVec3) (fun e => (d e).toVec3) a :=
  ⟨hf.entry 0, hf.entry 1, hf.entry 2⟩

theorem toRigid (hf : Tracks f d a) (hg : Tracks g d' a) :
    Rigid.Tracks (fun y => Block.toRigid (f y) (g y)) (fun e => Block.toRigid (d e) (d' e)) a :=
  ⟨hf.toQuat, hg.toVec3⟩

end Tracks

end Block

theorem Vec2.Tracks.toList {f : E → Vec2 ℝ} {d : E → Vec2 (Dual ℝ)} (hf : Vec2.Tracks f d a) :
    Block.Tracks (fun y => (f y).toList) (fun e => (d e).toList) a :=
  .cons hf.x (.cons hf.y .nil)

theorem Vec3.Tracks.toList {f : E → Vec3 ℝ} {d : E → Vec3 (Dual ℝ)} (hf : Vec3.Tracks f d a) :
    Block.Tracks (fun y => (f y).toList) (fun e => (d e).toList) a :=
  .cons hf.x (.cons hf.y (.cons hf.z .nil))

theorem Block.Tracks.dot_const {f : E → Block ℝ} {d : E → Block (Dual ℝ)} (hf : Block.Tracks f d a) (r : List ℝ) :
    Dual.Tracks (fun y => Scalar.dot r (f y)) (fun e => Scalar.dot (r.map Dual.const) (d e)) a := by
  induction hf generalizing r with
  | nil =>
    simp only [Scalar.dot, List.zipWith_nil_right]
    exact .numeral 0
  | cons hx _ ih =>
    cases r with
    | nil => exact .numeral 0
    | cons c r =>
      simp only [List.map_cons, Scalar.dot_cons]
      exact ((Dual.Tracks.const c).mul hx).add (ih r)

/-- Whitening keeps tracking up. -/
theorem Block.Tracks.mulList {f : E → Block ℝ} {d : E → Block (Dual ℝ)} (hf : Block.Tracks f d a) {m n : ℕ}
    (S : Mat m n ℝ) : Block.Tracks (fun y => S.mulList (f y)) (fun e => (S.map Dual.const).mulList (d e)) a := by
  simp only [Mat.mulList, Mat.rows_map, List.map_map]
  induction S.rows with
  | nil => exact .nil
  | cons r rows ih => exact .cons (hf.dot_const r) ih

end BundleAdjustment
