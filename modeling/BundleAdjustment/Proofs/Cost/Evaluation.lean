import BundleAdjustment.Proofs.Cost.Naturality

/-! # Evaluation and its buffers

A measurement is evaluated along two paths, plainly and over dual numbers. A dual number is tested by its value, so that
both paths choose the same branches and find the same residual. The buffers of a solver receive the Jacobians that it
asks for, whatever else it asks for.
-/

namespace BundleAdjustment

open Outcome

section Buffers

variable {α : Type} {height n : ℕ}

abbrev HaveShapes (height : ℕ) (Js : List (List (List α))) (sizes : List ℕ) : Prop :=
  List.Forall₂ (fun J n => J.map List.length = List.replicate height n) Js sizes

/-- The matrices that are asked for, in order, up to the end of the request. -/
def requested (wanted : List Bool) (Js : List (List (List α))) : List (Option (List (List α))) :=
  wanted.zipWith (fun w J => if w then some J else none) Js

/-- In a buffer without dimensions the rows lie one after the other. -/
theorem getElem?_flatten_of_shape {J : List (List α)} (h : J.map List.length = List.replicate height n) (i : ℕ)
    {j : ℕ} (hj : j < n) : J.flatten[i * n + j]? = J[i]?.bind fun row => row[j]? := by
  induction J generalizing height i with
  | nil => rfl
  | cons row J ih =>
    cases height with
    | zero => nomatch h
    | succ height =>
      rcases List.cons_eq_cons.mp h with ⟨hrow, hrest⟩
      rw [List.flatten_cons]
      cases i with
      | zero =>
        rw [List.getElem?_append_left (by omega), Nat.zero_mul, Nat.zero_add]
        rfl
      | succ i =>
        have hshift : (i + 1) * n + j - row.length = i * n + j := by
          rw [hrow, Nat.succ_mul]
          omega
        rw [List.getElem?_append_right (by rw [hrow, Nat.succ_mul]; omega), hshift, ih hrest]
        rfl

theorem fillBuffers_eq_ok (wanted : List Bool) {Js : List (List (List α))} {sizes : List ℕ}
    (h : HaveShapes height Js sizes) :
    CostFunction.fillBuffers height wanted sizes Js = .ok (requested wanted Js) := by
  induction wanted generalizing Js sizes with
  | nil => cases Js <;> cases sizes <;> rfl
  | cons w wanted ih =>
    cases h with
    | nil => rfl
    | @cons J size Js sizes hJ hrest =>
      have hbuffer : CostFunction.fillBuffer height size w J = .ok (if w then some J else none) := by
        cases w with
        | false => rfl
        | true =>
          rw [CostFunction.fillBuffer, if_neg (by decide), if_pos (length_flatten_of_shape hJ)]
          rfl
      rw [CostFunction.fillBuffers, hbuffer, ih hrest]
      rfl

theorem HaveShapes.map {β : Type} (g : α → β) {Js : List (List (List α))} {sizes : List ℕ}
    (h : HaveShapes height Js sizes) : HaveShapes height (Js.map fun J => J.map fun row => row.map g) sizes := by
  rw [HaveShapes, List.forall₂_map_left_iff]
  simpa only [List.map_map, Function.comp_def, List.length_map] using h

theorem HaveShapes.getD {Js : List (List (List α))} {sizes : List ℕ} (h : HaveShapes height Js sizes) {k : ℕ}
    (hk : sizes[k]? = some n) : (Js.getD k []).map List.length = List.replicate height n := by
  rcases List.getElem?_eq_some_iff.mp hk with ⟨hsize, rfl⟩
  have hk' : k < Js.length := h.length_eq ▸ hsize
  rw [List.getD_eq_getElem _ _ hk']
  exact h.get hk' hsize

theorem requested_map {β : Type} (g : List (List α) → List (List β)) (wanted : List Bool)
    (Js : List (List (List α))) : requested wanted (Js.map g) = (requested wanted Js).map (Option.map g) := by
  rw [requested, requested, List.zipWith_map_right, List.map_zipWith]
  congr 1
  funext w J
  cases w <;> rfl

end Buffers

section Columns

variable {α : Type} [Scalar α] {height : ℕ}

theorem column_rowsOfColumns {columns : List (List α)} (j : ℕ) (h : ∀ v ∈ columns, v.length = height)
    (hj : j < columns.length) : (rowsOfColumns height columns).map (fun row => row.getD j 0) = columns[j] := by
  have hlength : columns[j].length = height := h _ (List.getElem_mem hj)
  apply List.ext_getElem
  · simp [rowsOfColumns, hlength]
  · intro i _ hi
    simp [rowsOfColumns, List.getD_eq_getElem?_getD, hj, hi]

theorem blockRows_shape (F : List (Block (Dual α)) → List (Dual α)) (blocks : List (Block α)) (k : ℕ) :
    (blockRows F height blocks k).map List.length = List.replicate height (blocks.getD k []).length := by
  rw [blockRows, rowsOfColumns_shape, List.length_map, List.length_range]

theorem haveShapes_blockRows (height : ℕ) (F : List (Block (Dual α)) → List (Dual α)) {blocks : List (Block α)}
    {sizes : List ℕ} (h : Block.HaveSizes blocks sizes) :
    HaveShapes height ((List.range blocks.length).map (blockRows F height blocks)) sizes := by
  apply List.forall₂_iff_get.mpr
  constructor
  · simpa using h.length_eq
  · intro k hk hsize
    have hblock : k < blocks.length := by simpa using hk
    have hlength : blocks[k].length = sizes[k] := h.get hblock hsize
    simp only [List.get_eq_getElem, List.getElem_map, List.getElem_range, blockRows_shape]
    rw [List.getD_eq_getElem _ _ hblock, hlength]

end Columns

section Dual

variable {α : Type} [Scalar α]

theorem Mat.map_value_map_const {m n : ℕ} (S : Mat m n α) : (S.map Dual.const).map Dual.value = S := by
  ext i j
  simp [Dual.const]

theorem Measurement.map_value_map_const (m : Measurement α) : (m.map Dual.const).map Dual.value = m := by
  cases m <;> simp only [map, Mat.map_value_map_const] <;> rfl

theorem map_value_seed (blocks : List (Block α)) (k j : ℕ) :
    (seed blocks k j).map (List.map Dual.value) = blocks := by
  apply List.ext_getElem
  · simp [seed]
  · intro l _ _
    apply List.ext_getElem
    · simp [seed]
    · intro i _ _
      by_cases h : l = k ∧ i = j <;> simp [seed, h, Dual.moving, Dual.const]

end Dual

namespace Measurement

variable {α : Type} [Scalar α]

/-- What a measurement evaluates to at some blocks: a residual, and a Jacobian for each block. -/
structure Evaluates (m : Measurement α) (blocks : List (Block α)) (r : List α) (Js : List (List (List α))) : Prop where
  residual : m.residual blocks = .ok r
  length_residual : r.length = m.numResiduals
  jacobians : m.jacobians blocks = .ok Js
  shapes : HaveShapes m.numResiduals Js m.blockSizes
  /-- The evaluation over dual numbers that yields a column of a Jacobian finds the same residual. -/
  forward {k : ℕ} (hk : k < blocks.length) {j : ℕ} (hj : j < blocks[k].length) :
    ∃ d, (m.map Dual.const).residual (seed blocks k j) = .ok d ∧ d.map Dual.value = r ∧
      (Js.getD k []).map (fun row => row.getD j 0) = d.map Dual.slope
  evaluate (request : Request) : (CostFunction.ofMeasurement m).evaluate blocks request =
    .ok ⟨true, r, request.map fun wanted => requested wanted Js⟩

variable (m : Measurement α) {blocks : List (Block α)}

theorem haveSizes_seed (h : Block.HaveSizes blocks m.blockSizes) (k j : ℕ) :
    Block.HaveSizes (seed blocks k j) (m.map Dual.const).blockSizes := by
  rw [Block.haveSizes_iff, length_seed, blockSizes_map, ← Block.haveSizes_iff]
  exact h

theorem map_value_formula (h : Block.HaveSizes blocks m.blockSizes) (k j : ℕ) :
    ((m.map Dual.const).formula (seed blocks k j)).map Dual.value = m.formula blocks := by
  rw [map_formula Dual.isHom_value _ (m.haveSizes_seed h k j), map_value_map_const, map_value_seed]

omit [Scalar α] in
theorem checkBlocks_eq_ok (h : Block.HaveSizes blocks m.blockSizes) : m.checkBlocks blocks = .ok () := by
  rw [checkBlocks, if_pos h.length_eq]
  rfl

theorem evaluate_eq_ok {r : List α} {Js : List (List (List α))} (hcheck : m.checkBlocks blocks = .ok ())
    (hr : m.residual blocks = .ok r) (hJs : m.jacobians blocks = .ok Js)
    (hshapes : HaveShapes m.numResiduals Js m.blockSizes) (request : Request) :
    (CostFunction.ofMeasurement m).evaluate blocks request =
      .ok ⟨true, r, request.map fun wanted => requested wanted Js⟩ := by
  cases request with
  | none => exact bind_eq_ok.mpr ⟨(), hcheck, bind_eq_ok.mpr ⟨r, hr, rfl⟩⟩
  | some wanted =>
    have hwritten := fillBuffers_eq_ok wanted hshapes
    exact bind_eq_ok.mpr ⟨(), hcheck, bind_eq_ok.mpr ⟨r, hr, bind_eq_ok.mpr ⟨Js, hJs,
      bind_eq_ok.mpr ⟨_, hwritten, rfl⟩⟩⟩⟩

/-- At blocks of the declared sizes a measurement evaluates to its formula and the slopes of its formula. -/
theorem evaluates_formula (h : Block.HaveSizes blocks m.blockSizes) :
    m.Evaluates blocks (m.formula blocks)
      ((List.range blocks.length).map (blockRows (m.map Dual.const).formula m.numResiduals blocks)) where
  residual := m.residual_eq_formula h
  length_residual := m.length_formula h
  jacobians := m.jacobians_eq_blockRows h
  shapes := haveShapes_blockRows _ _ h
  forward {k} hk {j} hj := by
    have hheight (v : List α) (hv : v ∈ (List.range blocks[k].length).map fun j =>
        ((m.map Dual.const).formula (seed blocks k j)).map Dual.slope) : v.length = m.numResiduals := by
      rcases List.mem_map.mp hv with ⟨i, -, rfl⟩
      rw [List.length_map, ← m.length_formula h, ← m.map_value_formula h k i, List.length_map]
    have hcolumn := column_rowsOfColumns j hheight (by simpa using hj)
    exact ⟨_, residual_eq_formula _ (m.haveSizes_seed h k j), m.map_value_formula h k j,
      by simpa [blockRows, hk, hj] using hcolumn⟩
  evaluate := m.evaluate_eq_ok (m.checkBlocks_eq_ok h) (m.residual_eq_formula h) (m.jacobians_eq_blockRows h)
    (haveShapes_blockRows _ _ h)

end Measurement

namespace Cost

variable (m : Measurement Float) (kernel : KernelTable.Handle) {blocks : List (Block Float)}

theorem numResiduals_measurement : (measurement m kernel).numResiduals = m.numResiduals := by
  rw [numResiduals, function]
  exact Measurement.numResiduals_map Flushed.mk m

theorem blockSizes_measurement : (measurement m kernel).blockSizes = m.blockSizes := by
  rw [blockSizes, function]
  exact Measurement.blockSizes_map Flushed.mk m

theorem flushedMeasurement_eq_ok (h : Block.HaveSizes blocks m.blockSizes) :
    (measurement m kernel).flushedMeasurement blocks = .ok (m.map Flushed.mk) :=
  bind_eq_ok.mpr ⟨m, rfl, bind_eq_ok.mpr ⟨(), m.checkBlocks_eq_ok h, rfl⟩⟩

section Flushed

variable {m} {r : List Flushed} {Js : List (List (List Flushed))}
  (heval : (m.map Flushed.mk).Evaluates (blocks.map fun b => b.map Flushed.mk) r Js)

include heval

/-- What a measurement evaluates to in flushed arithmetic, as doubles. -/
theorem evaluates_flushed (hcheck : (measurement m kernel).flushedMeasurement blocks = .ok (m.map Flushed.mk)) :
    (measurement m kernel).residual blocks = .ok (r.map Flushed.value) ∧
      (measurement m kernel).jacobians blocks = .ok (Js.map fun J => J.map fun row => row.map Flushed.value) ∧
      ∀ request, (measurement m kernel).function.evaluate blocks request =
        .ok ⟨true, r.map Flushed.value,
          request.map fun wanted => requested wanted (Js.map fun J => J.map fun row => row.map Flushed.value)⟩ := by
  have hresidual : (measurement m kernel).residual blocks = .ok (r.map Flushed.value) := by
    rw [residual, hcheck]
    exact congrArg (Except.map (List.map Flushed.value)) heval.residual
  have hjacobians : (measurement m kernel).jacobians blocks =
      .ok (Js.map fun J => J.map fun row => row.map Flushed.value) :=
    bind_eq_ok.mpr ⟨_, hcheck, bind_eq_ok.mpr ⟨Js, heval.jacobians, rfl⟩⟩
  have hevaluate (request : Request) : (measurement m kernel).function.evaluate blocks request =
      .ok ⟨true, r.map Flushed.value,
        request.map fun wanted => requested wanted (Js.map fun J => J.map fun row => row.map Flushed.value)⟩ := by
    rw [function]
    simp only [CostFunction.transport, heval.evaluate, requested_map]
    cases request <;> rfl
  exact ⟨hresidual, hjacobians, hevaluate⟩

theorem forward_flushed {k : ℕ} (hk : k < blocks.length) {j : ℕ} (hj : j < blocks[k].length) :
    ∃ d, ((m.map Flushed.mk).map Dual.const).residual (seed (blocks.map fun b => b.map Flushed.mk) k j) = .ok d ∧
      d.map (fun x => x.value.value) = r.map Flushed.value ∧
      ((Js.map fun J => J.map fun row => row.map Flushed.value).getD k []).map (fun row => row.getD j 0) =
        d.map fun x => x.slope.value := by
  rcases heval.forward (k := k) (by simpa using hk) (j := j) (by simpa using hj) with ⟨d, hd, hvalue, hcolumn⟩
  have hresidual : d.map (fun x => x.value.value) = r.map Flushed.value := by
    rw [← hvalue, List.map_map]
    rfl
  have hblock : (Js.map fun J => J.map fun row => row.map Flushed.value).getD k [] =
      (Js.getD k []).map fun row => row.map Flushed.value :=
    List.getD_map Js [] fun J => J.map fun row => row.map Flushed.value
  have hentry (row : List Flushed) : (row.map Flushed.value).getD j 0 = (row.getD j 0).value :=
    List.getD_map row 0 Flushed.value
  have hslopes := congrArg (List.map Flushed.value) hcolumn
  exact ⟨d, hd, hresidual, by simpa only [hblock, hentry, List.map_map, Function.comp_def] using hslopes⟩

end Flushed

/-- At blocks of the declared sizes a measurement has a residual and Jacobians, and evaluating it succeeds with that
residual, which is also the value of every evaluation over dual numbers. The buffers receive the Jacobians that are
asked for, row after row, whichever others are asked for; the blocks are values that no evaluation changes. -/
theorem evaluate_measurement (h : Block.HaveSizes blocks (measurement m kernel).blockSizes) :
    ∃ r Js, (measurement m kernel).residual blocks = .ok r ∧ r.length = (measurement m kernel).numResiduals ∧
      (measurement m kernel).jacobians blocks = .ok Js ∧
      HaveShapes (measurement m kernel).numResiduals Js (measurement m kernel).blockSizes ∧
      (∀ request, (measurement m kernel).function.evaluate blocks request =
        .ok ⟨true, r, request.map fun wanted => requested wanted Js⟩) ∧
      ∀ (k : ℕ) (hk : k < blocks.length) (j : ℕ), j < blocks[k].length →
        (∀ i, (Js.getD k []).flatten[i * blocks[k].length + j]? = (Js.getD k [])[i]?.bind fun row => row[j]?) ∧
        ∃ d, ((m.map Flushed.mk).map Dual.const).residual (seed (blocks.map fun b => b.map Flushed.mk) k j) = .ok d ∧
          d.map (fun x => x.value.value) = r ∧
          (Js.getD k []).map (fun row => row.getD j 0) = d.map fun x => x.slope.value := by
  rw [blockSizes_measurement] at h
  have hflushed : Block.HaveSizes (blocks.map fun b => b.map Flushed.mk) (m.map Flushed.mk).blockSizes := by
    rw [Measurement.blockSizes_map]
    exact h.map Flushed.mk
  obtain ⟨r, Js, heval⟩ : ∃ r Js, (m.map Flushed.mk).Evaluates (blocks.map fun b => b.map Flushed.mk) r Js :=
    ⟨_, _, Measurement.evaluates_formula _ hflushed⟩
  rcases evaluates_flushed kernel heval (flushedMeasurement_eq_ok m kernel h) with ⟨hresidual, hjacobians, hevaluate⟩
  have hlength := heval.length_residual
  have hshapes := heval.shapes.map Flushed.value
  rw [Measurement.numResiduals_map] at hlength
  rw [Measurement.numResiduals_map, Measurement.blockSizes_map] at hshapes
  rw [blockSizes_measurement, numResiduals_measurement]
  have hsize (k : ℕ) (hk : k < blocks.length) : m.blockSizes[k]? = some blocks[k].length := by
    rw [← Block.haveSizes_iff.mp h]
    simp [hk]
  exact ⟨_, _, hresidual, (List.length_map _).trans hlength, hjacobians, hshapes, hevaluate, fun k hk j hj =>
    ⟨fun i => getElem?_flatten_of_shape (hshapes.getD (hsize k hk)) i hj, forward_flushed heval hk hj⟩⟩

/-- A pose that leaves points where they are, a point, and a focal length. -/
def sight : List (Block Float) := [[0, 0, 0, 1], [0, 0, 0], [1, 2, 4], [100, 0, 0]]

/-- The Jacobian of the point alone is asked for. -/
theorem evaluate_measurement_sight :
    Block.HaveSizes sight (measurement (.reprojection .simplePinhole ⟨3, 5⟩) 0).blockSizes ∧
      ∃ r Js, (measurement (.reprojection .simplePinhole ⟨3, 5⟩) 0).residual sight = .ok r ∧
        (measurement (.reprojection .simplePinhole ⟨3, 5⟩) 0).function.evaluate sight (some [false, false, true]) =
          .ok ⟨true, r, some (requested [false, false, true] Js)⟩ := by
  have hsizes : Block.HaveSizes sight (measurement (.reprojection .simplePinhole ⟨3, 5⟩) 0).blockSizes := by
    rw [blockSizes_measurement, Block.haveSizes_iff]
    rfl
  rcases evaluate_measurement _ _ hsizes with ⟨r, Js, hresidual, -, -, -, hevaluate, -⟩
  exact ⟨hsizes, r, Js, hresidual, hevaluate _⟩

end Cost

end BundleAdjustment
