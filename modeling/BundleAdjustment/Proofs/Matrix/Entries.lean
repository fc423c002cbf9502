import Mathlib.Data.Matrix.Mul
import BundleAdjustment.Matrix
import BundleAdjustment.Proofs.Exact.Scalar

/-! # Matrices by their entries

A stored matrix is determined by its entries. Over exact scalars its operations are those of the matrices of linear
algebra.
-/

namespace BundleAdjustment.Mat

open Matrix

variable {m n k : ℕ} {α β : Type}

@[simp] theorem vector_get_ofFn (f : Fin n → α) (i : Fin n) : (Vector.ofFn f).get i = f i := by
  change (Vector.ofFn f)[(i : ℕ)] = f i
  simp

@[ext] theorem ext {A B : Mat m n α} (h : ∀ i j, A.entry i j = B.entry i j) : A = B := by
  rcases A with ⟨A⟩
  rcases B with ⟨B⟩
  congr 1
  exact Vector.ext fun i hi => Vector.ext fun j hj => h ⟨i, hi⟩ ⟨j, hj⟩

@[simp] theorem entry_map (f : α → β) (A : Mat m n α) (i : Fin m) (j : Fin n) :
    (A.map f).entry i j = f (A.entry i j) := by
  simp [map, entry]

@[simp] theorem entry_transpose (A : Mat m n α) (i : Fin n) (j : Fin m) :
    A.transpose.entry i j = A.entry j i := entry_ofFn ..

@[simp] theorem transpose_transpose (A : Mat m n α) : A.transpose.transpose = A := by
  ext i j
  simp

theorem rows_eq (A : Mat m n α) : A.rows = List.ofFn fun i => List.ofFn (A.entry i) := by
  refine List.ext_getElem (by simp [rows]) fun i hi _ => ?_
  refine List.ext_getElem (by simp [rows]) fun j hj _ => ?_
  simp [rows, entry]

theorem rows_map (f : α → β) (A : Mat m n α) : (A.map f).rows = A.rows.map (List.map f) := by
  rw [rows_eq, rows_eq, List.map_ofFn]
  congr 1
  funext i
  rw [Function.comp_apply, List.map_ofFn]
  exact congrArg List.ofFn (funext fun j => entry_map f A i j)

theorem length_mulList [Scalar α] (A : Mat m n α) (v : List α) : (A.mulList v).length = m := by
  simp [mulList, rows]

def toMatrix (A : Mat m n α) : Matrix (Fin m) (Fin n) α := Matrix.of A.entry

def ofMatrix (M : Matrix (Fin m) (Fin n) α) : Mat m n α := ofFn fun i j => M i j

@[simp] theorem toMatrix_apply (A : Mat m n α) (i : Fin m) (j : Fin n) : A.toMatrix i j = A.entry i j := rfl

@[simp] theorem toMatrix_ofMatrix (M : Matrix (Fin m) (Fin n) α) : (ofMatrix M).toMatrix = M := by
  ext i j
  simp [ofMatrix]

theorem toMatrix_injective : Function.Injective (toMatrix : Mat m n α → Matrix (Fin m) (Fin n) α) := fun _ _ h =>
  ext fun i j => congrFun (congrFun h i) j

@[simp] theorem toMatrix_transpose (A : Mat m n α) : A.transpose.toMatrix = A.toMatrixᵀ := by
  ext i j
  simp

section Exact

variable [ExactScalar α]

@[simp] theorem toMatrix_identity : (identity n : Mat n n α).toMatrix = 1 := by
  ext i j
  by_cases h : i = j <;> simp [identity, Matrix.one_apply, h]

/-- A matrix acts on a list as it acts on the vector of the list. -/
theorem mulList_ofFn (A : Mat m n α) (v : Fin n → α) :
    A.mulList (List.ofFn v) = List.ofFn (A.toMatrix *ᵥ v) := by
  rw [mulList, rows_eq, List.map_ofFn]
  congr 1
  funext i
  exact Scalar.dot_ofFn ..

theorem mulList_neg (S : Mat m n α) (v : List α) : S.mulList (v.map (-·)) = (S.mulList v).map (-·) := by
  simp [mulList, Scalar.dot_neg]

theorem mulList_injective {S : Mat n n α} (hS : IsUnit S.toMatrix) {v w : List α} (hv : v.length = n)
    (hw : w.length = n) (h : S.mulList v = S.mulList w) : v = w := by
  obtain ⟨v, rfl⟩ : ∃ f : Fin n → α, v = List.ofFn f := ⟨fun i => v[i], by simp [← hv]⟩
  obtain ⟨w, rfl⟩ : ∃ f : Fin n → α, w = List.ofFn f := ⟨fun i => w[i], by simp [← hw]⟩
  rw [mulList_ofFn, mulList_ofFn, List.ofFn_inj] at h
  rw [Matrix.mulVec_injective_of_isUnit hS h]

end Exact

end BundleAdjustment.Mat
