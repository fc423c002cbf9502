import BundleAdjustment.Proofs.Derivative.Tracking
import BundleAdjustment.Proofs.Pose.Group
import BundleAdjustment.Proofs.Rotation.Matrix

/-! # Tracked geometry

Points, quaternions and motions of dual numbers track functions to points, quaternions and motions if their components
do. The operations on them are formulas, and keep this up as long as no divisor is zero.
-/

namespace BundleAdjustment

open Filter Topology

variable {E : Type*} [NormedAddCommGroup E] [NormedSpace ℝ E] {a : E}

structure Vec2.Tracks (f : E → Vec2 ℝ) (d : E → Vec2 (Dual ℝ)) (a : E) : Prop where
  x : Dual.Tracks (fun y => (f y).x) (fun e => (d e).x) a
  y : Dual.Tracks (fun y => (f y).y) (fun e => (d e).y) a

structure Vec3.Tracks (f : E → Vec3 ℝ) (d : E → Vec3 (Dual ℝ)) (a : E) : Prop where
  x : Dual.Tracks (fun y => (f y).x) (fun e => (d e).x) a
  y : Dual.Tracks (fun y => (f y).y) (fun e => (d e).y) a
  z : Dual.Tracks (fun y => (f y).z) (fun e => (d e).z) a

structure Quat.Tracks (f : E → Quat ℝ) (d : E → Quat (Dual ℝ)) (a : E) : Prop where
  x : Dual.Tracks (fun y => (f y).x) (fun e => (d e).x) a
  y : Dual.Tracks (fun y => (f y).y) (fun e => (d e).y) a
  z : Dual.Tracks (fun y => (f y).z) (fun e => (d e).z) a
  w : Dual.Tracks (fun y => (f y).w) (fun e => (d e).w) a

structure Rigid.Tracks (f : E → Rigid ℝ) (d : E → Rigid (Dual ℝ)) (a : E) : Prop where
  rotation : Quat.Tracks (fun y => (f y).rotation) (fun e => (d e).rotation) a
  translation : Vec3.Tracks (fun y => (f y).translation) (fun e => (d e).translation) a

namespace Vec2.Tracks

variable {f g : E → Vec2 ℝ} {d d' : E → Vec2 (Dual ℝ)} {c : E → ℝ} {b : E → Dual ℝ}

theorem const (v : Vec2 ℝ) : Tracks (fun _ : E => v) (fun _ => v.map Dual.const) a := ⟨.const v.x, .const v.y⟩

theorem add (hf : Tracks f d a) (hg : Tracks g d' a) : Tracks (fun y => f y + g y) (fun e => d e + d' e) a :=
  ⟨hf.x.add hg.x, hf.y.add hg.y⟩

theorem sub (hf : Tracks f d a) (hg : Tracks g d' a) : Tracks (fun y => f y - g y) (fun e => d e - d' e) a :=
  ⟨hf.x.sub hg.x, hf.y.sub hg.y⟩

theorem scale (hf : Tracks f d a) (hc : Dual.Tracks c b a) :
    Tracks (fun y => (f y).scale (c y)) (fun e => (d e).scale (b e)) a :=
  ⟨hf.x.mul hc, hf.y.mul hc⟩

theorem ite_lt {m n : E → ℝ} {p q : E → Dual ℝ} (hm : Dual.Tracks m p a) (hn : Dual.Tracks n q a) (hne : m a ≠ n a)
    (hf : m a < n a → Tracks f d a) (hg : n a < m a → Tracks g d' a) :
    Tracks (fun y => if Scalar.lt (m y) (n y) then f y else g y)
      (fun e => if Scalar.lt (p e) (q e) then d e else d' e) a where
  x := by simpa only [apply_ite Vec2.x] using hm.ite_lt hn hne (fun h => (hf h).x) fun h => (hg h).x
  y := by simpa only [apply_ite Vec2.y] using hm.ite_lt hn hne (fun h => (hf h).y) fun h => (hg h).y

end Vec2.Tracks

namespace Vec3.Tracks

variable {f g : E → Vec3 ℝ} {d d' : E → Vec3 (Dual ℝ)} {c : E → ℝ} {b : E → Dual ℝ}

theorem const (v : Vec3 ℝ) : Tracks (fun _ : E => v) (fun _ => v.map Dual.const) a :=
  ⟨.const v.x, .const v.y, .const v.z⟩

theorem congr (hf : Tracks f d a) (hfg : ∀ᶠ y in 𝓝 a, g y = f y) (hd : ∀ e, d' e = d e) : Tracks g d' a where
  x := hf.x.congr (hfg.mono fun _ h => congrArg Vec3.x h) fun e => congrArg Vec3.x (hd e)
  y := hf.y.congr (hfg.mono fun _ h => congrArg Vec3.y h) fun e => congrArg Vec3.y (hd e)
  z := hf.z.congr (hfg.mono fun _ h => congrArg Vec3.z h) fun e => congrArg Vec3.z (hd e)

theorem add (hf : Tracks f d a) (hg : Tracks g d' a) : Tracks (fun y => f y + g y) (fun e => d e + d' e) a :=
  ⟨hf.x.add hg.x, hf.y.add hg.y, hf.z.add hg.z⟩

theorem sub (hf : Tracks f d a) (hg : Tracks g d' a) : Tracks (fun y => f y - g y) (fun e => d e - d' e) a :=
  ⟨hf.x.sub hg.x, hf.y.sub hg.y, hf.z.sub hg.z⟩

theorem scale (hf : Tracks f d a) (hc : Dual.Tracks c b a) :
    Tracks (fun y => (f y).scale (c y)) (fun e => (d e).scale (b e)) a :=
  ⟨hf.x.mul hc, hf.y.mul hc, hf.z.mul hc⟩

theorem dot (hf : Tracks f d a) (hg : Tracks g d' a) :
    Dual.Tracks (fun y => (f y).dot (g y)) (fun e => (d e).dot (d' e)) a :=
  ((hf.x.mul hg.x).add (hf.y.mul hg.y)).add (hf.z.mul hg.z)

theorem cross (hf : Tracks f d a) (hg : Tracks g d' a) :
    Tracks (fun y => (f y).cross (g y)) (fun e => (d e).cross (d' e)) a where
  x := (hf.y.mul hg.z).sub (hf.z.mul hg.y)
  y := (hf.z.mul hg.x).sub (hf.x.mul hg.z)
  z := (hf.x.mul hg.y).sub (hf.y.mul hg.x)

theorem ite_lt {m n : E → ℝ} {p q : E → Dual ℝ} (hm : Dual.Tracks m p a) (hn : Dual.Tracks n q a) (hne : m a ≠ n a)
    (hf : m a < n a → Tracks f d a) (hg : n a < m a → Tracks g d' a) :
    Tracks (fun y => if Scalar.lt (m y) (n y) then f y else g y)
      (fun e => if Scalar.lt (p e) (q e) then d e else d' e) a where
  x := by simpa only [apply_ite Vec3.x] using hm.ite_lt hn hne (fun h => (hf h).x) fun h => (hg h).x
  y := by simpa only [apply_ite Vec3.y] using hm.ite_lt hn hne (fun h => (hf h).y) fun h => (hg h).y
  z := by simpa only [apply_ite Vec3.z] using hm.ite_lt hn hne (fun h => (hf h).z) fun h => (hg h).z

end Vec3.Tracks

namespace Quat.Tracks

variable {f g : E → Quat ℝ} {d d' : E → Quat (Dual ℝ)} {v : E → Vec3 ℝ} {u : E → Vec3 (Dual ℝ)}

theorem const (q : Quat ℝ) : Tracks (fun _ : E => q) (fun _ => q.map Dual.const) a :=
  ⟨.const q.x, .const q.y, .const q.z, .const q.w⟩

theorem vec (hf : Tracks f d a) : Vec3.Tracks (fun y => (f y).vec) (fun e => (d e).vec) a := ⟨hf.x, hf.y, hf.z⟩

theorem conjugate (hf : Tracks f d a) : Tracks (fun y => (f y).conjugate) (fun e => (d e).conjugate) a :=
  ⟨hf.x.neg, hf.y.neg, hf.z.neg, hf.w⟩

theorem mul (hf : Tracks f d a) (hg : Tracks g d' a) : Tracks (fun y => f y * g y) (fun e => d e * d' e) a where
  x := (((hf.w.mul hg.x).add (hf.x.mul hg.w)).add (hf.y.mul hg.z)).sub (hf.z.mul hg.y)
  y := (((hf.w.mul hg.y).sub (hf.x.mul hg.z)).add (hf.y.mul hg.w)).add (hf.z.mul hg.x)
  z := (((hf.w.mul hg.z).add (hf.x.mul hg.y)).sub (hf.y.mul hg.x)).add (hf.z.mul hg.w)
  w := (((hf.w.mul hg.w).sub (hf.x.mul hg.x)).sub (hf.y.mul hg.y)).sub (hf.z.mul hg.z)

theorem normSq (hf : Tracks f d a) : Dual.Tracks (fun y => (f y).normSq) (fun e => (d e).normSq) a :=
  (((hf.x.mul hf.x).add (hf.y.mul hf.y)).add (hf.z.mul hf.z)).add (hf.w.mul hf.w)

theorem inverse (hf : Tracks f d a) (hne : (f a).normSq ≠ 0) :
    Tracks (fun y => (f y).inverse) (fun e => (d e).inverse) a where
  x := hf.x.neg.div hf.normSq hne
  y := hf.y.neg.div hf.normSq hne
  z := hf.z.neg.div hf.normSq hne
  w := hf.w.div hf.normSq hne

theorem rotate (hf : Tracks f d a) (hv : Vec3.Tracks v u a) :
    Vec3.Tracks (fun y => (f y).rotate (v y)) (fun e => (d e).rotate (u e)) a :=
  have hcross := hf.vec.cross hv
  have htwice := hcross.add hcross
  (hv.add (htwice.scale hf.w)).add (hf.vec.cross htwice)

end Quat.Tracks

namespace Rigid.Tracks

variable {f : E → Rigid ℝ} {d : E → Rigid (Dual ℝ)} {v : E → Vec3 ℝ} {u : E → Vec3 (Dual ℝ)}

theorem const (T : Rigid ℝ) : Tracks (fun _ : E => T) (fun _ => T.map Dual.const) a :=
  ⟨.const T.rotation, .const T.translation⟩

theorem apply (hf : Tracks f d a) (hv : Vec3.Tracks v u a) :
    Vec3.Tracks (fun y => (f y).apply (v y)) (fun e => (d e).apply (u e)) a :=
  (hf.rotation.rotate hv).add hf.translation

end Rigid.Tracks

end BundleAdjustment
