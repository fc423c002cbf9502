import Mathlib.Algebra.Group.MinimalAxioms

/-! # Groups inside a type

Motions and quaternions can all be multiplied, but only some of them form a group: those whose rotations have length
one, or are not zero. The laws are stated for the elements with such a property, and follow from those of one side.
-/

namespace BundleAdjustment

section Laws

variable {G : Type} [Mul G] (P : G → Prop) (one : G) (inv : G → G)

/-- The elements with a property are closed under the operations of a group, and obey the laws of its right side. -/
structure HasRightLaws : Prop where
  one_mem : P one
  mul_mem {A B : G} (hA : P A) (hB : P B) : P (A * B)
  inv_mem {A : G} (hA : P A) : P (inv A)
  mul_assoc {A B C : G} (hA : P A) (hB : P B) (hC : P C) : A * B * C = A * (B * C)
  mul_one {A : G} (hA : P A) : A * one = A
  mul_inv {A : G} (hA : P A) : A * inv A = one

/-- The elements with a property form a group. -/
structure IsGroupOn : Prop extends HasRightLaws P one inv where
  one_mul {A : G} (hA : P A) : one * A = A
  inv_mul {A : G} (hA : P A) : inv A * A = one
  inv_inv {A : G} (hA : P A) : inv (inv A) = A
  inv_mul_rev {A B : G} (hA : P A) (hB : P B) : inv (A * B) = inv B * inv A

/-- The elements with a property form a group that acts on points. -/
structure IsGroupActionOn {X : Type} (act : G → X → X) : Prop extends IsGroupOn P one inv where
  one_act (p : X) : act one p = p
  mul_act {A B : G} (hA : P A) (hB : P B) (p : X) : act (A * B) p = act A (act B p)
  inv_act {A : G} (hA : P A) (p : X) : act (inv A) (act A p) = p

end Laws

variable {G : Type} [Mul G] {P : G → Prop} {one : G} {inv : G → G}

abbrev HasRightLaws.group (h : HasRightLaws P one inv) : Group {A // P A} :=
  @Group.ofRightAxioms _ ⟨fun A B => ⟨A * B, h.mul_mem A.2 B.2⟩⟩ ⟨fun A => ⟨inv A, h.inv_mem A.2⟩⟩ ⟨⟨one, h.one_mem⟩⟩
    (fun A B C => Subtype.ext (h.mul_assoc A.2 B.2 C.2)) (fun A => Subtype.ext (h.mul_one A.2))
    fun A => Subtype.ext (h.mul_inv A.2)

/-- The laws of the right side imply all others. -/
theorem isGroupOn_of_right (h : HasRightLaws P one inv) : IsGroupOn P one inv := by
  let := h.group
  refine { h with one_mul := ?_, inv_mul := ?_, inv_inv := ?_, inv_mul_rev := ?_ }
  · intro A hA
    exact congrArg Subtype.val (one_mul (⟨A, hA⟩ : {A // P A}))
  · intro A hA
    exact congrArg Subtype.val (inv_mul_cancel (⟨A, hA⟩ : {A // P A}))
  · intro A hA
    exact congrArg Subtype.val (inv_inv (⟨A, hA⟩ : {A // P A}))
  · intro A B hA hB
    exact congrArg Subtype.val (mul_inv_rev (⟨A, hA⟩ : {A // P A}) ⟨B, hB⟩)

/-- A group acts on points as soon as products do. -/
theorem isGroupActionOn_of_mul {X : Type} {act : G → X → X} (h : IsGroupOn P one inv) (one_act : ∀ p, act one p = p)
    (mul_act : ∀ {A B}, P A → P B → ∀ p, act (A * B) p = act A (act B p)) : IsGroupActionOn P one inv act := by
  refine { h with one_act := one_act, mul_act := mul_act, inv_act := ?_ }
  intro A hA p
  rw [← mul_act (h.inv_mem hA) hA, h.inv_mul hA, one_act]

/-- Each point is the image of one point only, its image under the inverse. -/
theorem IsGroupActionOn.act_eq_iff {X : Type} {act : G → X → X} (h : IsGroupActionOn P one inv act) {A : G} (hA : P A)
    {p q : X} : act A p = q ↔ p = act (inv A) q := by
  constructor
  · rintro rfl
    exact (h.inv_act hA p).symm
  · rintro rfl
    have hback := h.inv_act (h.inv_mem hA) q
    rwa [h.inv_inv hA] at hback

end BundleAdjustment
