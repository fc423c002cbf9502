import Mathlib.Data.Set.List
import BundleAdjustment.Cost.Basic
import BundleAdjustment.Proofs.Matrix.Entries
import BundleAdjustment.Proofs.Outcome

/-! # Regular costs

A regular cost fills the buffers that it is handed, and its residual does not depend on which Jacobians are wanted.
Every cost of the library is regular.
-/

namespace BundleAdjustment

open Outcome

section Residual

variable {α : Type} [Scalar α]

def Kernel.numResults : Kernel → ℕ
  | reprojection _ | fixedPointReprojection _ | rigReprojection _ => 2
  | posePrior | relativePosePrior => 6
  | positionPrior | alignment => 3
  | sampson => 1

theorem Kernel.imageError_length (camera : CameraModel) (observed intrinsics : Block α) (point : Vec3 α) :
    Returns (fun r => r.length = 2) (imageError camera observed intrinsics point) :=
  .bind fun _ => .pure rfl

theorem Kernel.apply_length (k : Kernel) (blocks : List (Block α)) :
    Returns (fun r => r.length = k.numResults) (k.apply blocks) := by
  unfold apply
  split
  · exact .bind fun _ => imageError_length _ _ _ _
  · exact .bind fun _ => imageError_length _ _ _ _
  · exact .bind fun _ => .bind fun _ => imageError_length _ _ _ _
  · exact .bind fun _ => .bind fun _ => .bind fun _ => .bind fun _ => .pure rfl
  · exact .bind fun _ => .bind fun _ => .bind fun _ => .pure rfl
  · exact .bind fun _ => .bind fun _ => .bind fun _ => .bind fun _ => .bind fun _ => .bind fun _ => .pure rfl
  · exact .bind fun _ => .bind fun _ => .bind fun _ => .bind fun _ => .pure rfl
  · exact .bind fun _ => .bind fun _ => .pure rfl
  · exact .throw _

omit [Scalar α] in
theorem Measurement.numResiduals_pos (m : Measurement α) : 0 < m.numResiduals := by
  cases m <;> exact Nat.succ_pos _

theorem Measurement.whiten_length (m : Measurement α) {r : List α} (h : r.length = m.kernel.numResults) :
    (m.whiten r).length = m.numResiduals := by
  cases m <;> simp only [whiten, numResiduals, Mat.length_mulList] <;> exact h

theorem Measurement.residual_length (m : Measurement α) (blocks : List (Block α)) :
    Returns (fun r => r.length = m.numResiduals) (m.residual blocks) := by
  intro r h
  rcases bind_eq_ok.mp h with ⟨results, hresults, h⟩
  obtain rfl : m.whiten results = r := Except.ok.inj h
  exact m.whiten_length (m.kernel.apply_length _ results hresults)

end Residual

section Buffers

variable {α β : Type}

/-- The lengths of the rows of what was written into the buffers. -/
def Evaluation.shape (e : Evaluation α) : Option (List (Option (List ℕ))) :=
  e.jacobians.map fun js => js.map fun j => j.map fun rows => rows.map List.length

def bufferShape (height : ℕ) (sizes : List ℕ) (request : Request) : Option (List (Option (List ℕ))) :=
  request.map fun wanted =>
    wanted.zipWith (fun w size => if w then some (List.replicate height size) else none) sizes

theorem length_flatten_of_shape {height n : ℕ} {rows : List (List α)}
    (h : rows.map List.length = List.replicate height n) : rows.flatten.length = height * n := by
  rw [List.length_flatten, h, List.sum_replicate, smul_eq_mul]

theorem Evaluation.shape_map (f : α → β) (e : Evaluation α) : (e.map f).shape = e.shape := by
  simp [shape, Evaluation.map, Function.comp_def]

variable [Scalar α]

theorem rowsOfColumns_shape (height : ℕ) (columns : List (List α)) :
    (rowsOfColumns height columns).map List.length = List.replicate height columns.length := by
  simp [rowsOfColumns, Function.comp_def, List.map_const']

/-- The Jacobians are made of columns, one list of them for each block. -/
theorem jacobians_columns (f : List (Block (Dual α)) → Except Fault (List (Dual α))) (height : ℕ)
    (blocks : List (Block α)) :
    Returns (fun js => ∃ columns : List (List (List α)), columns.length = blocks.length ∧
        columns.map (rowsOfColumns height) = js)
      (jacobians f height blocks) := by
  have hrows (block : ℕ) : Returns (· ∈ Set.range (rowsOfColumns height)) (blockJacobian f height blocks block) :=
    .bind fun columns => .pure ⟨columns, rfl⟩
  intro js h
  rcases Returns.mapM hrows (List.range blocks.length) js h with ⟨hlength, hmem⟩
  obtain ⟨columns, rfl⟩ : js ∈ Set.range (List.map (rowsOfColumns height)) := by
    rwa [Set.range_list_map]
  exact ⟨columns, by simpa using hlength, rfl⟩

theorem CostFunction.fillBuffer_shape {height : ℕ} (hpos : 0 < height) (size : ℕ) (wanted : Bool)
    (columns : List (List α)) :
    Returns (fun j : Option (List (List α)) => (j.map fun rows => rows.map List.length) =
        if wanted then some (List.replicate height size) else none)
      (fillBuffer height size wanted (rowsOfColumns height columns)) := by
  have hflatten : (rowsOfColumns height columns).flatten.length = height * columns.length :=
    length_flatten_of_shape (rowsOfColumns_shape height columns)
  cases wanted with
  | false => exact .pure rfl
  | true =>
    intro j hj
    by_cases h : (rowsOfColumns height columns).flatten.length = height * size
    · have hsize : columns.length = size := Nat.eq_of_mul_eq_mul_left hpos (hflatten.symm.trans h)
      rw [fillBuffer, if_neg (by decide), if_pos h] at hj
      obtain rfl : some (rowsOfColumns height columns) = j := Except.ok.inj hj
      rw [Option.map_some, rowsOfColumns_shape, hsize, if_pos rfl]
    · rw [fillBuffer, if_neg (by decide), if_neg h] at hj
      nomatch hj

theorem CostFunction.fillBuffers_shape {height : ℕ} (hpos : 0 < height) (request : List Bool) {sizes : List ℕ}
    {columns : List (List (List α))} (hlength : columns.length = sizes.length) :
    Returns (fun written : List (Option (List (List α))) =>
        some (written.map fun j => j.map fun rows => rows.map List.length) = bufferShape height sizes (some request))
      (fillBuffers height request sizes (columns.map (rowsOfColumns height))) := by
  induction request generalizing sizes columns with
  | nil => exact .pure rfl
  | cons wanted request ih =>
    cases sizes with
    | nil => exact .pure rfl
    | cons size sizes =>
      cases columns with
      | nil => simp at hlength
      | cons column columns =>
        intro written h
        rcases bind_eq_ok.mp h with ⟨j, hj, h⟩
        rcases bind_eq_ok.mp h with ⟨js, hjs, h⟩
        obtain rfl : j :: js = written := Except.ok.inj h
        have hhead := fillBuffer_shape hpos size wanted column j hj
        have htail := ih (by simpa using hlength) js hjs
        simp only [bufferShape, Option.map_some, Option.some.injEq] at htail ⊢
        rw [List.map_cons, hhead, htail, List.zipWith_cons_cons]

end Buffers

/-- A cost that fills the buffers that it is handed, and whose residual does not depend on the Jacobians wanted. -/
structure CostFunction.Regular {α : Type} (c : CostFunction α) : Prop where
  residual_length {blocks : List (Block α)} {request : Request} {e : Evaluation α} :
    c.evaluate blocks request = .ok e → e.residual.length = c.numResiduals
  shape {blocks : List (Block α)} {request : Request} {e : Evaluation α} :
    c.evaluate blocks request = .ok e → e.shape = bufferShape c.numResiduals c.blockSizes request
  same_residual {blocks : List (Block α)} {request request' : Request} {e e' : Evaluation α} :
    c.evaluate blocks request = .ok e → c.evaluate blocks request' = .ok e' → e'.ok = e.ok ∧ e'.residual = e.residual

namespace CostFunction

variable {α : Type} [Scalar α]

theorem evaluate_linear {scale : α} {blocks : List (Block α)} {request : Request} {e : Evaluation α}
    (h : (linear scale).evaluate blocks request = .ok e) :
    e.ok = true ∧ e.residual = [scale * (blocks.headD []).headD 0] ∧ e.shape = bufferShape 1 [1] request := by
  rcases blocks with _ | ⟨_ | ⟨x, b⟩, bs⟩ <;> rcases request with _ | _ | ⟨wanted, ws⟩
  case cons.cons.none =>
    obtain rfl := Except.ok.inj h
    exact ⟨rfl, rfl, rfl⟩
  case cons.cons.some.cons =>
    obtain rfl := Except.ok.inj h
    refine ⟨rfl, rfl, ?_⟩
    cases wanted <;> simp [Evaluation.shape, bufferShape]
  all_goals nomatch h

theorem regular_linear (scale : α) : (linear scale).Regular where
  residual_length h := by
    rw [(evaluate_linear h).2.1]
    rfl
  shape h := (evaluate_linear h).2.2
  same_residual h h' := by
    rcases evaluate_linear h with ⟨hok, hresidual, -⟩
    rcases evaluate_linear h' with ⟨hok', hresidual', -⟩
    exact ⟨hok'.trans hok.symm, hresidual'.trans hresidual.symm⟩

theorem regular_stub (residual : List α) (blockSizes : List ℕ) (ok : Bool) : (stub residual blockSizes ok).Regular where
  residual_length h := Except.ok.inj h ▸ rfl
  shape {blocks request e} h := by
    obtain rfl := Except.ok.inj h
    cases request with
    | none => rfl
    | some wanted =>
      simp only [Evaluation.shape, bufferShape, stub, Option.map_some, List.map_zipWith]
      congr 2
      funext w size
      cases w <;> simp
  same_residual h h' := Except.ok.inj h ▸ Except.ok.inj h' ▸ ⟨rfl, rfl⟩

theorem evaluate_ofMeasurement {m : Measurement α} {blocks : List (Block α)} {request : Request} {e : Evaluation α}
    (h : (ofMeasurement m).evaluate blocks request = .ok e) :
    e.ok = true ∧ m.residual blocks = .ok e.residual ∧ e.shape = bufferShape m.numResiduals m.blockSizes request := by
  rcases bind_eq_ok.mp h with ⟨_, hcheck, h⟩
  rcases bind_eq_ok.mp h with ⟨r, hr, h⟩
  cases request with
  | none =>
    obtain rfl := Except.ok.inj h
    exact ⟨rfl, hr, rfl⟩
  | some wanted =>
    rcases bind_eq_ok.mp h with ⟨js, hjs, h⟩
    rcases bind_eq_ok.mp h with ⟨written, hwritten, h⟩
    obtain rfl := Except.ok.inj h
    rcases jacobians_columns _ _ _ js hjs with ⟨columns, hlength, rfl⟩
    have hblocks : blocks.length = m.blockSizes.length := by
      by_contra hne
      rw [Measurement.checkBlocks, if_neg hne] at hcheck
      nomatch hcheck
    exact ⟨rfl, hr, fillBuffers_shape m.numResiduals_pos wanted (hlength.trans hblocks) written hwritten⟩

theorem regular_ofMeasurement (m : Measurement α) : (ofMeasurement m).Regular where
  residual_length h := m.residual_length _ _ (evaluate_ofMeasurement h).2.1
  shape h := (evaluate_ofMeasurement h).2.2
  same_residual h h' := by
    rcases evaluate_ofMeasurement h with ⟨hok, hresidual, -⟩
    rcases evaluate_ofMeasurement h' with ⟨hok', hresidual', -⟩
    exact ⟨hok'.trans hok.symm, Except.ok.inj (hresidual'.symm.trans hresidual)⟩

omit [Scalar α] in
theorem Regular.transport {β : Type} {c : CostFunction α} (hc : c.Regular) (enter : β → α) (leave : α → β) :
    (c.transport enter leave).Regular where
  residual_length h := by
    rcases map_eq_ok.mp h with ⟨e, he, rfl⟩
    exact (List.length_map _).trans (hc.residual_length he)
  shape h := by
    rcases map_eq_ok.mp h with ⟨e, he, rfl⟩
    rw [Evaluation.shape_map]
    exact hc.shape he
  same_residual h h' := by
    rcases map_eq_ok.mp h with ⟨e, he, rfl⟩
    rcases map_eq_ok.mp h' with ⟨e', he', rfl⟩
    rcases hc.same_residual he he' with ⟨hok, hresidual⟩
    exact ⟨hok, congrArg (List.map leave) hresidual⟩

theorem shape_conditionRow (e : Evaluation α) (row : ℕ) (value factor : α) :
    (e.conditionRow row value factor).shape = e.shape := by
  have hrows (rows : List (List α)) : (rows.modify row fun r => r.map (· * factor)).map List.length =
      rows.map List.length := by
    refine List.ext_getElem (by simp) fun i _ _ => ?_
    by_cases h : row = i <;> simp [h]
  simp only [Evaluation.shape, Evaluation.conditionRow, Option.map_map, Function.comp_def, List.map_map, hrows]

theorem conditionFrom_shape (row : ℕ) (conditioners : List (Option (CostFunction α))) (e : Evaluation α) :
    Returns (fun e' => e'.residual.length = e.residual.length ∧ e'.shape = e.shape)
      (conditionFrom row conditioners e) := by
  induction conditioners generalizing row e with
  | nil => exact .pure ⟨rfl, rfl⟩
  | cons c rest ih =>
    cases c with
    | none => exact ih (row + 1) e
    | some c =>
      refine .bind fun inner => ?_
      split
      · intro e' h
        rcases ih _ _ e' h with ⟨hlength, hshape⟩
        exact ⟨hlength.trans (List.length_set ..), hshape.trans (shape_conditionRow ..)⟩
      · exact .pure ⟨rfl, rfl⟩

/-- The conditioners see the residual alone. -/
theorem conditionFrom_same_residual {row : ℕ} {conditioners : List (Option (CostFunction α))}
    {e₁ e₂ e₁' e₂' : Evaluation α} (hok : e₂.ok = e₁.ok) (hresidual : e₂.residual = e₁.residual)
    (h₁ : conditionFrom row conditioners e₁ = .ok e₁') (h₂ : conditionFrom row conditioners e₂ = .ok e₂') :
    e₂'.ok = e₁'.ok ∧ e₂'.residual = e₁'.residual := by
  induction conditioners generalizing row e₁ e₂ with
  | nil =>
    obtain rfl := Except.ok.inj h₁
    obtain rfl := Except.ok.inj h₂
    exact ⟨hok, hresidual⟩
  | cons c rest ih =>
    cases c with
    | none => exact ih hok hresidual h₁ h₂
    | some c =>
      rw [conditionFrom] at h₁ h₂
      rcases bind_eq_ok.mp h₁ with ⟨inner, hinner, h₁⟩
      rcases bind_eq_ok.mp h₂ with ⟨inner₂, hinner₂, h₂⟩
      rw [hresidual, hinner] at hinner₂
      obtain rfl := Except.ok.inj hinner₂
      split at h₁
      · rw [if_pos ‹_›] at h₂
        refine ih ?_ ?_ h₁ h₂
        · exact hok
        · exact congrArg (List.set · row inner.value) hresidual
      · rw [if_neg ‹_›] at h₂
        obtain rfl := Except.ok.inj h₁
        obtain rfl := Except.ok.inj h₂
        exact ⟨rfl, hresidual⟩

theorem Regular.condition {wrapped : CostFunction α} (hwrapped : wrapped.Regular)
    (conditioners : List (Option (CostFunction α))) : (wrapped.condition conditioners).Regular where
  residual_length h := by
    rcases bind_eq_ok.mp h with ⟨e, he, h⟩
    split at h
    · exact (conditionFrom_shape _ _ _ _ h).1.trans (hwrapped.residual_length he)
    · exact Except.ok.inj h ▸ hwrapped.residual_length he
  shape h := by
    rcases bind_eq_ok.mp h with ⟨e, he, h⟩
    split at h
    · exact (conditionFrom_shape _ _ _ _ h).2.trans (hwrapped.shape he)
    · exact Except.ok.inj h ▸ hwrapped.shape he
  same_residual h h' := by
    rcases bind_eq_ok.mp h with ⟨e, he, h⟩
    rcases bind_eq_ok.mp h' with ⟨e', he', h'⟩
    rcases hwrapped.same_residual he he' with ⟨hok, hresidual⟩
    rw [hok] at h'
    split at h
    · rw [if_pos ‹_›] at h'
      exact conditionFrom_same_residual hok hresidual h h'
    · rw [if_neg ‹_›] at h'
      exact Except.ok.inj h ▸ Except.ok.inj h' ▸ ⟨hok, hresidual⟩

end CostFunction

/-- The size of a Jacobian that was written. -/
theorem CostFunction.Regular.rows_length {α : Type} {c : CostFunction α} (hc : c.Regular) {blocks : List (Block α)}
    {request : Request} {e : Evaluation α} (he : c.evaluate blocks request = .ok e)
    {js : List (Option (List (List α)))} (hjs : e.jacobians = some js) {k : ℕ} {rows : List (List α)}
    (hrows : js[k]? = some (some rows)) {m : ℕ} (hm : c.blockSizes[k]? = some m) :
    rows.length = c.numResiduals ∧ ∀ row ∈ rows, row.length = m := by
  have hshape := hc.shape he
  rw [Evaluation.shape, hjs] at hshape
  cases request with
  | none => nomatch hshape
  | some wanted =>
    have hbuffer := congrArg (fun l => l[k]?) (Option.some.inj hshape)
    cases hw : wanted[k]? with
    | none => simp [hrows, hw, List.getElem?_zipWith] at hbuffer
    | some w =>
      have hlengths : rows.map List.length = List.replicate c.numResiduals m := by
        cases w with
        | false => simp [hrows, hw, hm, List.getElem?_zipWith] at hbuffer
        | true => simpa [hrows, hw, hm, List.getElem?_zipWith] using hbuffer
      rw [List.eq_replicate_iff, List.length_map, List.forall_mem_map] at hlengths
      exact hlengths

/-- Every cost is regular. -/
theorem Cost.regular_function : (c : Cost Float) → c.function.Regular
  | measurement m _ => by
    rw [function]
    exact (CostFunction.regular_ofMeasurement _).transport _ _
  | linear scale => by
    rw [function]
    exact CostFunction.regular_linear scale
  | conditioned wrapped conditioners => by
    rw [function]
    exact (regular_function wrapped).condition _
  | stub residual blockSizes ok => by
    rw [function]
    exact CostFunction.regular_stub residual blockSizes ok

end BundleAdjustment
