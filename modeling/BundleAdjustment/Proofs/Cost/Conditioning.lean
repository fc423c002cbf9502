import BundleAdjustment.Proofs.Cost.Regular

/-! # Conditioned rows

What conditioning leaves behind, row by row. Each conditioner changes its own row alone, so that while the conditioners
run, the rows before the current one are as they will stay, and the rows from it on are as the wrapped cost wrote them.
-/

namespace BundleAdjustment

/-- What a conditioner does to its row: the residual that it puts in place, and the factor of the derivatives. -/
structure RowChange (α : Type) where
  value : α
  factor : α

section Before

variable {α : Type}

def before (row : ℕ) (change : ℕ → Option (RowChange α)) (i : ℕ) : Option (RowChange α) :=
  if i < row then change i else none

@[simp] theorem before_self (row : ℕ) (change : ℕ → Option (RowChange α)) : before row change row = none := by
  simp [before]

@[simp] theorem before_succ_self (row : ℕ) (change : ℕ → Option (RowChange α)) :
    before (row + 1) change row = change row := by
  simp [before]

theorem before_of_lt (change : ℕ → Option (RowChange α)) {row i : ℕ} (h : i < row) :
    before row change i = change i := if_pos h

theorem before_succ_of_ne (change : ℕ → Option (RowChange α)) {row i : ℕ} (h : row ≠ i) :
    before (row + 1) change i = before row change i := by
  have hlt : i < row + 1 ↔ i < row := by omega
  simp only [before, hlt]

end Before

variable {α : Type} [Scalar α]

/-- A row as a conditioner, if there is one, leaves it. The derivative is taken at the residual as it was. -/
inductive CostFunction.Conditions : Option (CostFunction α) → α → Option (RowChange α) → Prop
  | none (r : α) : Conditions none r none
  | some {c : CostFunction α} {r value factor : α} :
    c.evaluate [[r]] (some [true]) = .ok ⟨true, [value], some [some [[factor]]]⟩ →
      Conditions (some c) r (some ⟨value, factor⟩)

namespace Evaluation

def rewriteResidual (change : ℕ → Option (RowChange α)) (r : List α) : List α :=
  r.mapIdx fun i x => (change i).elim x RowChange.value

def rewriteRows (change : ℕ → Option (RowChange α)) (rows : List (List α)) : List (List α) :=
  rows.mapIdx fun i row => (change i).elim row fun c => row.map (· * c.factor)

/-- The evaluation with some rows changed, in the residual and in every Jacobian that was written. -/
def rewrite (change : ℕ → Option (RowChange α)) (e : Evaluation α) : Evaluation α where
  ok := e.ok
  residual := rewriteResidual change e.residual
  jacobians := e.jacobians.map fun js => js.map fun j => j.map (rewriteRows change)

omit [Scalar α] in
theorem rewriteResidual_step (change : ℕ → Option (RowChange α)) (r : List α) {row : ℕ} {c : RowChange α}
    (h : change row = some c) :
    (rewriteResidual (before row change) r).set row c.value = rewriteResidual (before (row + 1) change) r := by
  refine List.ext_getElem (by simp [rewriteResidual]) fun i _ _ => ?_
  by_cases hrow : row = i
  · subst hrow
    simp [rewriteResidual, h]
  · simp [rewriteResidual, hrow, before_succ_of_ne change hrow]

theorem rewriteRows_step (change : ℕ → Option (RowChange α)) (rows : List (List α)) {row : ℕ} {c : RowChange α}
    (h : change row = some c) :
    (rewriteRows (before row change) rows).modify row (fun r => r.map (· * c.factor)) =
      rewriteRows (before (row + 1) change) rows := by
  refine List.ext_getElem (by simp [rewriteRows]) fun i _ _ => ?_
  by_cases hrow : row = i
  · subst hrow
    simp [rewriteRows, h]
  · simp [rewriteRows, hrow, before_succ_of_ne change hrow]

/-- A conditioner makes the change of its row. -/
theorem conditionRow_rewrite (change : ℕ → Option (RowChange α)) (e : Evaluation α) {row : ℕ} {c : RowChange α}
    (h : change row = some c) :
    (e.rewrite (before row change)).conditionRow row c.value c.factor = e.rewrite (before (row + 1) change) := by
  simp only [rewrite, conditionRow, rewriteResidual_step change _ h, Option.map_map, Function.comp_def, List.map_map,
    rewriteRows_step change _ h]

theorem rewrite_before_succ (change : ℕ → Option (RowChange α)) (e : Evaluation α) {row : ℕ} (h : change row = none) :
    e.rewrite (before (row + 1) change) = e.rewrite (before row change) := by
  have hbefore : before (row + 1) change = before row change := by
    funext i
    by_cases hrow : row = i
    · subst hrow
      rw [before_succ_self, before_self, h]
    · exact before_succ_of_ne change hrow
  rw [hbefore]

theorem rewrite_before_zero (change : ℕ → Option (RowChange α)) (e : Evaluation α) :
    e.rewrite (before 0 change) = e := by
  have hbefore (i : ℕ) : before 0 change i = none := if_neg i.not_lt_zero
  have hresidual (r : List α) : rewriteResidual (before 0 change) r = r :=
    List.ext_getElem (by simp [rewriteResidual]) fun i _ _ => by simp [rewriteResidual, hbefore]
  have hrows (rows : List (List α)) : rewriteRows (before 0 change) rows = rows :=
    List.ext_getElem (by simp [rewriteRows]) fun i _ _ => by simp [rewriteRows, hbefore]
  simp [rewrite, hresidual, funext hrows]

/-- The current row has not been changed yet. -/
theorem rewrite_before_getD (change : ℕ → Option (RowChange α)) (e : Evaluation α) (row : ℕ) (x : α) :
    (e.rewrite (before row change)).residual.getD row x = e.residual.getD row x := by
  cases h : e.residual[row]? <;> simp [rewrite, rewriteResidual, List.getD_eq_getElem?_getD, h]

/-- In a buffer stored row after row, an entry is changed as its row is. -/
theorem flatten_rewriteRows (change : ℕ → Option (RowChange α)) {m : ℕ} {rows : List (List α)}
    (h : ∀ row ∈ rows, row.length = m) :
    (rewriteRows change rows).flatten =
      rows.flatten.mapIdx fun k x => (change (k / m)).elim x fun c => x * c.factor := by
  induction rows generalizing change with
  | nil => rfl
  | cons row rows ih =>
    rcases List.forall_mem_cons.mp h with ⟨hrow, hrows⟩
    have htail := ih (fun i => change (i + 1)) hrows
    have hcons : rewriteRows change (row :: rows) =
        ((change 0).elim row fun c => row.map (· * c.factor)) :: rewriteRows (fun i => change (i + 1)) rows := by
      simp [rewriteRows]
    have hhead : (row.mapIdx fun k x => (change (k / m)).elim x fun c => x * c.factor) =
        (change 0).elim row fun c => row.map (· * c.factor) := by
      have hmap : (row.mapIdx fun k x => (change (k / m)).elim x fun c => x * c.factor) =
          row.map fun x => (change 0).elim x fun c => x * c.factor := by
        refine List.ext_getElem (by simp) fun k hk _ => ?_
        have hfirst : k / m = 0 := Nat.div_eq_of_lt (by simpa [← hrow] using hk)
        simp [hfirst]
      rw [hmap]
      cases change 0 <;> simp
    have hshift : (rows.flatten.mapIdx fun k x => (change ((k + row.length) / m)).elim x fun c => x * c.factor) =
        rows.flatten.mapIdx fun k x => (change (k / m + 1)).elim x fun c => x * c.factor := by
      rcases m.eq_zero_or_pos with rfl | hpos
      · rw [List.flatten_eq_nil_iff.mpr fun row hmem => List.length_eq_zero_iff.mp (hrows row hmem)]
        rfl
      · simp only [hrow, Nat.add_div_right _ hpos]
    rw [hcons, List.flatten_cons, List.flatten_cons, List.mapIdx_append, hhead, htail, hshift]

end Evaluation

namespace CostFunction

open Evaluation Outcome

/-- The conditioners that succeed make the changes of their rows, one after the other. -/
theorem conditionFrom_append (change : ℕ → Option (RowChange α)) (e : Evaluation α) (row : ℕ)
    (conditioners rest : List (Option (CostFunction α)))
    (h : ∀ i c, conditioners[i]? = some c → Conditions c (e.residual.getD (row + i) 0) (change (row + i))) :
    conditionFrom row (conditioners ++ rest) (e.rewrite (before row change)) =
      conditionFrom (row + conditioners.length) rest (e.rewrite (before (row + conditioners.length) change)) := by
  -- The invariant is in the statement: the rows before the current one are changed, and no others.
  induction conditioners generalizing row with
  | nil => rfl
  | cons c conditioners ih =>
    have hhead : Conditions c (e.residual.getD row 0) (change row) := h 0 c rfl
    have htail := ih (row + 1) fun i c hc => by
      have hshift : row + (i + 1) = row + 1 + i := by omega
      exact hshift ▸ h (i + 1) c hc
    have hlength : row + (c :: conditioners).length = row + 1 + conditioners.length := by
      rw [List.length_cons]
      omega
    rw [hlength, ← htail, List.cons_append]
    generalize hchange : change row = ch at hhead
    cases hhead with
    | none => rw [conditionFrom, rewrite_before_succ change e hchange]
    | some hc =>
      rw [conditionFrom, rewrite_before_getD, hc, ← conditionRow_rewrite change e hchange]
      rfl

/-- A conditioned cost changes the rows of the wrapped cost, where all succeed. -/
theorem evaluate_condition_eq {wrapped : CostFunction α} {conditioners : List (Option (CostFunction α))}
    {blocks : List (Block α)} {request : Request} {e : Evaluation α} (he : wrapped.evaluate blocks request = .ok e)
    (hok : e.ok = true) {change : ℕ → Option (RowChange α)}
    (h : ∀ i c, conditioners[i]? = some c → Conditions c (e.residual.getD i 0) (change i)) :
    (wrapped.condition conditioners).evaluate blocks request =
      .ok (e.rewrite (before conditioners.length change)) := by
  have hrun := conditionFrom_append change e 0 conditioners [] (by simpa using h)
  rw [List.append_nil, rewrite_before_zero, Nat.zero_add, conditionFrom] at hrun
  exact bind_eq_ok.mpr ⟨e, he, by rwa [if_pos hok]⟩

omit [Scalar α] in
theorem checkConditioners_eq_ok {wrapped : CostFunction α} {conditioners : List (Option (CostFunction α))}
    (h : wrapped.checkConditioners conditioners = .ok ()) :
    conditioners.length = wrapped.numResiduals ∧ ∀ c, some c ∈ conditioners → c.isScalar = true := by
  by_cases hlength : conditioners.length = wrapped.numResiduals
  · refine ⟨hlength, fun c hc => ?_⟩
    rw [checkConditioners, if_neg (not_not_intro hlength)] at h
    cases hfind : conditioners.findIdx? fun c => c.any fun c => !c.isScalar with
    | none => simpa using List.findIdx?_eq_none_iff.mp hfind (some c) hc
    | some i =>
      rw [hfind] at h
      nomatch h
  · rw [checkConditioners, if_pos hlength] at h
    nomatch h

omit [Scalar α] in
theorem Regular.evaluate_scalar {c : CostFunction α} (hc : c.Regular) (hscalar : c.isScalar = true) {r : α}
    {inner : Evaluation α} (h : c.evaluate [[r]] (some [true]) = .ok inner) (hok : inner.ok = true) :
    ∃ value factor, inner = ⟨true, [value], some [some [[factor]]]⟩ := by
  obtain ⟨hresiduals, hsizes⟩ : c.numResiduals = 1 ∧ c.blockSizes = [1] := by simpa [isScalar] using hscalar
  have hresidual := hc.residual_length h
  have hshape := hc.shape h
  rcases inner with ⟨ok, residual, jacobians⟩
  rw [hresiduals] at hresidual hshape
  rw [hsizes] at hshape
  rcases List.length_eq_one_iff.mp hresidual with ⟨value, rfl⟩
  obtain rfl : ok = true := hok
  have hbuffers : jacobians.map (fun js => js.map fun j => j.map fun rows => rows.map List.length) = some [some [1]] :=
    hshape
  simp only [Option.map_eq_some_iff, List.map_eq_singleton_iff, List.length_eq_one_iff] at hbuffers
  rcases hbuffers with ⟨_, rfl, _, rfl, _, rfl, _, rfl, factor, rfl⟩
  exact ⟨value, factor, rfl⟩

/-- Every conditioner succeeds at its residual. -/
def Succeed (conditioners : List (Option (CostFunction α))) (r : List α) : Prop :=
  ∀ (i : ℕ) (c : CostFunction α) (x : α), conditioners[i]? = some (some c) → r[i]? = some x →
    ∃ inner, c.evaluate [[x]] (some [true]) = .ok inner ∧ inner.ok = true

/-- Conditioners that all succeed each make a change of their row. -/
theorem exists_conditions {wrapped : CostFunction α} {conditioners : List (Option (CostFunction α))}
    (hregular : ∀ c, some c ∈ conditioners → c.Regular) (hcheck : wrapped.checkConditioners conditioners = .ok ())
    {r : List α} (hr : r.length = wrapped.numResiduals) (hinner : Succeed conditioners r) :
    ∃ change : ℕ → Option (RowChange α), ∀ i c, conditioners[i]? = some c → Conditions c (r.getD i 0) (change i) := by
  rcases checkConditioners_eq_ok hcheck with ⟨hlength, hscalar⟩
  have hrow (i : ℕ) : ∃ ch, ∀ c, conditioners[i]? = some c → Conditions c (r.getD i 0) ch := by
    cases hc : conditioners[i]? with
    | none => exact ⟨none, by simp⟩
    | some c =>
      cases c with
      | none => exact ⟨none, by rintro _ ⟨⟩; exact .none _⟩
      | some c =>
        rcases List.getElem?_eq_some_iff.mp hc with ⟨hi, -⟩
        have hx : r[i]? = some (r.getD i 0) := by
          rw [List.getD_eq_getElem?_getD, List.getElem?_eq_getElem (by omega), Option.getD_some]
        rcases hinner i c _ hc hx with ⟨inner, heval, hok⟩
        have hmem : some c ∈ conditioners := List.mem_of_getElem? hc
        rcases (hregular c hmem).evaluate_scalar (hscalar c hmem) heval hok with ⟨value, factor, rfl⟩
        exact ⟨some ⟨value, factor⟩, by rintro _ ⟨⟩; exact .some heval⟩
  choose change hchange using hrow
  exact ⟨change, hchange⟩

/-- Where the wrapped cost and all conditioners succeed, each residual is passed through its conditioner, and its row of
every Jacobian is multiplied by the derivative of the conditioner at the residual as it was. All costs are regular, by
`Cost.regular_function`, so that costs and conditioners may be conditioned themselves. -/
theorem evaluate_condition {wrapped : CostFunction α} (hwrapped : wrapped.Regular)
    {conditioners : List (Option (CostFunction α))} (hregular : ∀ c, some c ∈ conditioners → c.Regular)
    (hcheck : wrapped.checkConditioners conditioners = .ok ()) {blocks : List (Block α)} {request : Request}
    {e : Evaluation α} (he : wrapped.evaluate blocks request = .ok e) (hok : e.ok = true)
    (hinner : Succeed conditioners e.residual) :
    ∃ change : ℕ → Option (RowChange α),
      (∀ (i : ℕ) (c : Option (CostFunction α)) (r : α), conditioners[i]? = some c → e.residual[i]? = some r →
        Conditions c r (change i)) ∧
      (wrapped.condition conditioners).evaluate blocks request = .ok (e.rewrite change) ∧
      (e.rewrite change).ok = true ∧
      (∀ (js : List (Option (List (List α)))) (k : ℕ) (rows : List (List α)) (m : ℕ),
        e.jacobians = some js → js[k]? = some (some rows) → wrapped.blockSizes[k]? = some m →
        rows.length = wrapped.numResiduals ∧ (rewriteRows change rows).flatten =
          rows.flatten.mapIdx fun p x => (change (p / m)).elim x fun c => x * c.factor) ∧
      ∀ request' e', wrapped.evaluate blocks request' = .ok e' →
        ∃ e'', (wrapped.condition conditioners).evaluate blocks request' = .ok e'' ∧ e''.ok = true ∧
          e''.residual = (e.rewrite change).residual := by
  rcases exists_conditions hregular hcheck (hwrapped.residual_length he) hinner with ⟨change, hchange⟩
  refine ⟨before conditioners.length change, ?_, evaluate_condition_eq he hok hchange, hok, ?_, ?_⟩
  · intro i c r hc hr
    rcases List.getElem?_eq_some_iff.mp hc with ⟨hi, -⟩
    have hconditions := hchange i c hc
    rwa [List.getD_eq_getElem?_getD, hr, Option.getD_some, ← before_of_lt change hi] at hconditions
  · intro js k rows m hjs hrows hm
    rcases hwrapped.rows_length he hjs hrows hm with ⟨hheight, hwidth⟩
    exact ⟨hheight, flatten_rewriteRows _ hwidth⟩
  · intro request' e' he'
    rcases hwrapped.same_residual he he' with ⟨hok', hresidual⟩
    refine ⟨_, evaluate_condition_eq he' (hok'.trans hok) (hresidual ▸ hchange), hok'.trans hok, ?_⟩
    exact congrArg (rewriteResidual _) hresidual

end CostFunction

namespace Cost

/-- Two residuals, of which the second is tripled and doubled. -/
def offsets : Cost Float := .stub [2, 3] [1, 2] true

def sixfold : Cost Float := .conditioned (.linear 3) [some (.linear 2)]

theorem sixfold_evaluate (x : Float) :
    sixfold.function.evaluate [[x]] (some [true]) = .ok ⟨true, [2 * (3 * x)], some [some [[3 * 2]]]⟩ := rfl

/-- The second row is conditioned by a conditioned cost, the first is left alone. -/
theorem evaluate_condition_sixfold :
    offsets.function.checkConditioners (functions [none, some sixfold]) = .ok () ∧
      ∃ e change, offsets.function.evaluate [[0], [0, 0]] (some [true, false]) = .ok e ∧ e.ok = true ∧
        (CostFunction.Conditions (some sixfold.function) 3 (change 1)) ∧
        (conditioned offsets [none, some sixfold]).function.evaluate [[0], [0, 0]] (some [true, false]) =
          .ok (e.rewrite change) := by
  have hcheck : offsets.function.checkConditioners (functions [none, some sixfold]) = .ok () := rfl
  have hregular (c : CostFunction Float) (hc : some c ∈ functions [none, some sixfold]) : c.Regular := by
    have hsixfold : c = sixfold.function := by simpa [functions] using hc
    exact hsixfold ▸ regular_function sixfold
  have he : offsets.function.evaluate [[0], [0, 0]] (some [true, false]) =
      .ok ⟨true, [2, 3], some [some [[1], [1]], none]⟩ := rfl
  have hinner : CostFunction.Succeed (functions [none, some sixfold]) [2, 3] := by
    intro i c r hc hr
    rcases i with _ | _ | i
    · nomatch hc
    · obtain rfl : sixfold.function = c := Option.some.inj (Option.some.inj hc)
      exact ⟨_, sixfold_evaluate r, rfl⟩
    · nomatch hc
  obtain ⟨change, hconditions, heval, -⟩ :=
    CostFunction.evaluate_condition (regular_function offsets) hregular hcheck he rfl hinner
  exact ⟨hcheck, _, change, he, rfl, hconditions 1 _ _ rfl rfl, heval⟩

end Cost

end BundleAdjustment
