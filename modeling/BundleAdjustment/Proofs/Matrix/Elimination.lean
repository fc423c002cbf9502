import Mathlib.Algebra.BigOperators.Fin
import Mathlib.LinearAlgebra.Matrix.NonsingularInverse
import Mathlib.Tactic.LinearCombination
import BundleAdjustment.Matrix.Inverse
import BundleAdjustment.Proofs.Matrix.Entries

/-! # Elimination is exact

Over the reals, elimination with row pivoting solves every regular system, and gives up exactly where the matrix has a
kernel. One step replaces the system by that of the remaining rows and columns; `mulVec_eq_iff` says how solutions pass
between the two.
-/

namespace BundleAdjustment.Mat

open Matrix

variable {n k : ℕ}

theorem le_foldl_max {ι : Type*} (f : ι → ℝ) (is : List ι) (p : ι) :
    f p ≤ f (is.foldl (fun p i => if Scalar.lt (f p) (f i) then i else p) p) ∧
      ∀ i ∈ is, f i ≤ f (is.foldl (fun p i => if Scalar.lt (f p) (f i) then i else p) p) := by
  induction is generalizing p with
  | nil => simp
  | cons i is ih =>
    rcases ih (if Scalar.lt (f p) (f i) then i else p) with ⟨hp, his⟩
    rw [List.foldl_cons, List.forall_mem_cons]
    have hfirst : f p ≤ f (if Scalar.lt (f p) (f i) then i else p) ∧
        f i ≤ f (if Scalar.lt (f p) (f i) then i else p) := by
      by_cases h : f p < f i
      · simpa [h] using h.le
      · simpa [h] using not_lt.mp h
    exact ⟨hfirst.1.trans hp, hfirst.2.trans hp, his⟩

theorem abs_entry_le_pivotRow (A : Mat (n + 1) (n + 1) ℝ) (i : Fin (n + 1)) :
    |A.entry i 0| ≤ |A.entry A.pivotRow 0| := by
  rw [← Scalar.abs_eq, ← Scalar.abs_eq]
  exact (le_foldl_max (fun i => Scalar.abs (A.entry i 0)) (List.finRange (n + 1)) 0).2 i (List.mem_finRange i)

/-- Division by a pivot and multiplication by its reciprocal do not differ. -/
theorem multipleOf_eq (pivot x : ℝ) : multipleOf pivot (1 / pivot) x = x / pivot := by
  unfold multipleOf
  split_ifs
  · rfl
  · exact (div_eq_mul_one_div x pivot).symm

theorem entry_swapWithFirst (A : Mat (n + 1) k ℝ) (p i : Fin (n + 1)) (j : Fin k) :
    (A.swapWithFirst p).entry i j = A.entry (Equiv.swap 0 p i) j := by
  simp [swapWithFirst, Equiv.swap_apply_def]

/-- Exchanging rows on both sides of a system leaves its solutions. -/
theorem swapWithFirst_mulVec_eq_iff (A : Mat (n + 1) k ℝ) (p : Fin (n + 1)) (v : Fin k → ℝ) (b : Fin (n + 1) → ℝ) :
    (A.swapWithFirst p).toMatrix *ᵥ v = b ∘ Equiv.swap 0 p ↔ A.toMatrix *ᵥ v = b := by
  have hswap : (A.swapWithFirst p).toMatrix *ᵥ v = (A.toMatrix *ᵥ v) ∘ Equiv.swap 0 p := by
    funext i
    simp [Matrix.mulVec, dotProduct, entry_swapWithFirst]
  rw [hswap]
  exact (Equiv.swap 0 p).surjective.injective_comp_right.eq_iff

/-- By what multiple of the first row each other row is reduced. -/
noncomputable def multiples (A : Mat (n + 1) (n + 1) ℝ) : Vector ℝ n :=
  Vector.ofFn fun i => A.entry i.succ 0 / A.entry 0 0

/-- What remains of a matrix below and right of its first pivot. -/
noncomputable def remaining (A : Mat (n + 1) (n + 1) ℝ) : Mat n n ℝ := (A.eliminateFirst A.multiples).dropColumn

/-- The first unknown of a system, from all others. -/
noncomputable def firstUnknown (A : Mat (n + 1) (n + 1) ℝ) (b : ℝ) (v : Fin n → ℝ) : ℝ :=
  (b - ∑ l, A.entry 0 l.succ * v l) / A.entry 0 0

theorem entry_remaining (A : Mat (n + 1) (n + 1) ℝ) (i j : Fin n) : A.remaining.entry i j =
    A.entry i.succ j.succ - A.entry i.succ 0 / A.entry 0 0 * A.entry 0 j.succ := by
  simp [remaining, multiples, eliminateFirst, dropColumn]

theorem remaining_mulVec (A : Mat (n + 1) (n + 1) ℝ) (v : Fin n → ℝ) (i : Fin n) :
    (A.remaining.toMatrix *ᵥ v) i = ∑ l, A.entry i.succ l.succ * v l -
      A.entry i.succ 0 / A.entry 0 0 * ∑ l, A.entry 0 l.succ * v l := by
  rw [Finset.mul_sum, ← Finset.sum_sub_distrib]
  change ∑ l, A.remaining.entry i l * v l = _
  refine Finset.sum_congr rfl fun l _ => ?_
  rw [entry_remaining]
  ring

theorem mulVec_eq_iff (A : Mat (n + 1) (n + 1) ℝ) (h : A.entry 0 0 ≠ 0) (v b : Fin (n + 1) → ℝ) :
    A.toMatrix *ᵥ v = b ↔ v 0 = A.firstUnknown (b 0) (Fin.tail v) ∧
      A.remaining.toMatrix *ᵥ Fin.tail v = fun i => b i.succ - A.entry i.succ 0 / A.entry 0 0 * b 0 := by
  have hrow (i : Fin (n + 1)) : (A.toMatrix *ᵥ v) i =
      A.entry i 0 * v 0 + ∑ l, A.entry i l.succ * Fin.tail v l := Fin.sum_univ_succ _
  have hfirst : (A.toMatrix *ᵥ v) 0 = b 0 ↔ v 0 = A.firstUnknown (b 0) (Fin.tail v) := by
    rw [hrow, firstUnknown, eq_div_iff h]
    constructor <;> intro hb <;> linear_combination hb
  have hrest (h0 : (A.toMatrix *ᵥ v) 0 = b 0) (i : Fin n) : (A.toMatrix *ᵥ v) i.succ = b i.succ ↔
      (A.remaining.toMatrix *ᵥ Fin.tail v) i = b i.succ - A.entry i.succ 0 / A.entry 0 0 * b 0 := by
    rw [hrow] at h0 ⊢
    rw [remaining_mulVec, ← h0]
    have hcancel := div_mul_cancel₀ (A.entry i.succ 0) h
    constructor
    · intro hb
      linear_combination hb + v 0 * hcancel
    · intro hb
      linear_combination hb - v 0 * hcancel
  rw [funext_iff, Fin.forall_fin_succ, hfirst, funext_iff]
  exact and_congr_right fun h0 => forall_congr' (hrest (hfirst.mpr h0))

theorem foldr_sub_eq {ι : Type*} (f : ι → ℝ) (is : List ι) (b : ℝ) :
    is.foldr (fun i s => s - f i) b = b - (is.map f).sum := by
  induction is with
  | nil => simp
  | cons i is ih =>
    rw [List.foldr_cons, ih, List.map_cons, List.sum_cons]
    ring

/-- The solution of a system, from that of the remaining one. -/
noncomputable def prependUnknowns (A : Mat (n + 1) (n + 1) ℝ) (B : Mat (n + 1) k ℝ) (X : Mat n k ℝ) :
    Mat (n + 1) k ℝ :=
  ofFn fun i j => Fin.cases (A.firstUnknown (B.entry 0 j) fun l => X.entry l j) (fun i => X.entry i j) i

theorem solve_succ (A : Mat (n + 1) (n + 1) ℝ) (B : Mat (n + 1) k ℝ) {A' : Mat (n + 1) (n + 1) ℝ}
    {B' : Mat (n + 1) k ℝ} (hA : A' = A.swapWithFirst A.pivotRow) (hB : B' = B.swapWithFirst A.pivotRow) :
    A.solve B = if A'.entry 0 0 = 0 then none else
      (A'.remaining.solve (B'.eliminateFirst A'.multiples)).map (A'.prependUnknowns B') := by
  subst hA hB
  rw [solve]
  generalize A.swapWithFirst A.pivotRow = A', B.swapWithFirst A.pivotRow = B'
  by_cases h : A'.entry 0 0 = 0
  · simp [h]
  · simp only [Scalar.eq_iff, ExactScalar.numeral_eq_cast, Nat.cast_zero, Nat.cast_one, h, if_false, multipleOf_eq]
    rw [remaining, multiples]
    cases (A'.eliminateFirst (Vector.ofFn fun i => A'.entry i.succ 0 / A'.entry 0 0)).dropColumn.solve
      (B'.eliminateFirst (Vector.ofFn fun i => A'.entry i.succ 0 / A'.entry 0 0)) with
    | none => rfl
    | some X =>
      simp only [vector_get_ofFn, foldr_sub_eq, ← Fin.sum_univ_def, mul_one_div]
      rfl

/-- What elimination finds is a solution, column by column. -/
theorem mulVec_eq_of_solve_eq_some {n : ℕ} {A : Mat n n ℝ} {B X : Mat n k ℝ} (h : A.solve B = some X) (j : Fin k) :
    (A.toMatrix *ᵥ fun i => X.entry i j) = fun i => B.entry i j := by
  induction n with
  | zero => exact funext fun i => i.elim0
  | succ n ih =>
    have hB : (fun i => B.entry i j) ∘ Equiv.swap 0 A.pivotRow = fun i => (B.swapWithFirst A.pivotRow).entry i j :=
      funext fun i => (entry_swapWithFirst ..).symm
    rw [← swapWithFirst_mulVec_eq_iff A A.pivotRow, hB]
    rw [solve_succ A B rfl rfl] at h
    generalize A.swapWithFirst A.pivotRow = A', B.swapWithFirst A.pivotRow = B' at h ⊢
    split_ifs at h with hpivot
    rcases Option.map_eq_some_iff.mp h with ⟨Y, hY, rfl⟩
    refine (mulVec_eq_iff A' hpivot _ _).mpr ⟨?_, ?_⟩
    · simp [prependUnknowns, Fin.tail_def]
    · have hrest := ih hY
      simp only [eliminateFirst, entry_ofFn, multiples, vector_get_ofFn] at hrest
      simpa [prependUnknowns, Fin.tail_def] using hrest

/-- Where elimination gives up, the matrix takes some vector to zero. -/
theorem exists_mulVec_eq_zero_of_solve_eq_none {n : ℕ} {A : Mat n n ℝ} {B : Mat n k ℝ} (h : A.solve B = none) :
    ∃ v ≠ 0, A.toMatrix *ᵥ v = 0 := by
  induction n with
  | zero => simp [solve] at h
  | succ n ih =>
    have hpivot : (A.swapWithFirst A.pivotRow).entry 0 0 = A.entry A.pivotRow 0 := by simp [entry_swapWithFirst]
    rw [solve_succ A B rfl rfl] at h
    by_cases hzero : (A.swapWithFirst A.pivotRow).entry 0 0 = 0
    · refine ⟨Pi.single 0 1, by simp, ?_⟩
      funext i
      simpa [← hpivot, hzero] using A.abs_entry_le_pivotRow i
    · rw [if_neg hzero, Option.map_eq_none_iff] at h
      rcases ih h with ⟨w, hw, hker⟩
      have hcomp : (0 : Fin (n + 1) → ℝ) ∘ Equiv.swap 0 A.pivotRow = 0 := rfl
      refine ⟨Fin.cons ((A.swapWithFirst A.pivotRow).firstUnknown 0 w) w, ?_, ?_⟩
      · intro hv
        exact hw (congrArg Fin.tail hv)
      · rw [← swapWithFirst_mulVec_eq_iff A A.pivotRow, hcomp, mulVec_eq_iff _ hzero]
        refine ⟨rfl, hker.trans ?_⟩
        funext i
        simp

theorem mul_eq_one_of_inverse?_eq_some {A X : Mat n n ℝ} (h : A.inverse? = some X) :
    A.toMatrix * X.toMatrix = 1 := by
  rw [← toMatrix_identity]
  ext i j
  exact congrFun (mulVec_eq_of_solve_eq_some h j) i

/-- The computed inverse is the inverse, and it is found whenever there is one. -/
theorem inverse?_eq_some_iff {A X : Mat n n ℝ} : A.inverse? = some X ↔ A.toMatrix * X.toMatrix = 1 := by
  refine ⟨mul_eq_one_of_inverse?_eq_some, fun h => ?_⟩
  have hleft : X.toMatrix * A.toMatrix = 1 := mul_eq_one_comm.mp h
  cases hinverse : A.inverse? with
  | none =>
    rcases exists_mulVec_eq_zero_of_solve_eq_none hinverse with ⟨v, hv, hker⟩
    refine absurd ?_ hv
    rw [← one_mulVec v, ← hleft, ← mulVec_mulVec, hker, mulVec_zero]
  | some Y =>
    have hY := mul_eq_one_of_inverse?_eq_some hinverse
    exact congrArg some (toMatrix_injective (left_inv_eq_right_inv hleft hY).symm)

end BundleAdjustment.Mat
