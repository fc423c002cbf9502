import BundleAdjustment.Proofs.Cost.Conditioning

/-! # Conditioners that refuse

A conditioner may report failure at its residual. The first one that does ends the evaluation: the rows before it stay
as they were conditioned, and the rows from it on as the wrapped cost wrote them.
-/

namespace BundleAdjustment

open Outcome

namespace CostFunction

variable {α : Type}

/-- At every number the cost gives an answer: whether it succeeds, one residual and one derivative. -/
def Answers (c : CostFunction α) : Prop :=
  ∀ r, ∃ ok value factor, c.evaluate [[r]] (some [true]) = .ok ⟨ok, [value], some [some [[factor]]]⟩

/-- The conditioner of a row reports failure at the residual of that row. -/
def RefusesAt (conditioners : List (Option (CostFunction α))) (r : List α) (i : ℕ) : Prop :=
  ∃ (c : CostFunction α) (x : α) (inner : Evaluation α), conditioners[i]? = some (some c) ∧ r[i]? = some x ∧
    c.evaluate [[x]] (some [true]) = .ok inner ∧ inner.ok = false

/-- No conditioner refuses before row `k`, and that of row `k` does. -/
structure FirstRefusal (conditioners : List (Option (CostFunction α))) (r : List α) (k : ℕ) : Prop where
  refuses : RefusesAt conditioners r k
  least {i : ℕ} : i < k → ¬RefusesAt conditioners r i

theorem RefusesAt.exists_first {conditioners : List (Option (CostFunction α))} {r : List α} {i : ℕ}
    (h : RefusesAt conditioners r i) : ∃ k, FirstRefusal conditioners r k := by
  classical
  have hex : ∃ k, RefusesAt conditioners r k := ⟨i, h⟩
  exact ⟨Nat.find hex, Nat.find_spec hex, Nat.find_min hex⟩

theorem FirstRefusal.unique {conditioners : List (Option (CostFunction α))} {r : List α} {k l : ℕ}
    (hk : FirstRefusal conditioners r k) (hl : FirstRefusal conditioners r l) : k = l := by
  rcases lt_trichotomy k l with h | h | h
  · exact absurd hk.refuses (hl.least h)
  · exact h
  · exact absurd hl.refuses (hk.least h)

section Rows

variable {conditioners : List (Option (CostFunction α))} {r : List α} {k : ℕ}

theorem RefusesAt.congr {conditioners' : List (Option (CostFunction α))} (h : RefusesAt conditioners r k)
    (hsame : conditioners'[k]? = conditioners[k]?) : RefusesAt conditioners' r k := by
  obtain ⟨c, x, inner, hc, hx, heval, hok⟩ := h
  exact ⟨c, x, inner, hsame.trans hc, hx, heval, hok⟩

theorem RefusesAt.lt_length (h : RefusesAt conditioners r k) : k < conditioners.length := by
  obtain ⟨c, x, inner, hc, -⟩ := h
  exact (List.getElem?_eq_some_iff.mp hc).1

/-- What the conditioners before row `k` do, if none of them refuses. -/
theorem exists_conditions_before (hanswers : ∀ c, some c ∈ conditioners → c.Answers)
    (h : ∀ i < k, ¬RefusesAt conditioners r i) :
    ∃ change : ℕ → Option (RowChange α), ∀ i c x, i < k → conditioners[i]? = some c → r[i]? = some x →
      Conditions c x (change i) := by
  have hrow (i : ℕ) : ∃ ch, ∀ c x, i < k → conditioners[i]? = some c → r[i]? = some x → Conditions c x ch := by
    by_cases hcond : ∃ c x, i < k ∧ conditioners[i]? = some (some c) ∧ r[i]? = some x
    · obtain ⟨c, x, hi, hc, hx⟩ := hcond
      obtain ⟨ok, value, factor, heval⟩ := hanswers c (List.mem_of_getElem? hc) x
      cases ok with
      | false => exact absurd ⟨c, x, _, hc, hx, heval, rfl⟩ (h i hi)
      | true =>
        use some ⟨value, factor⟩
        intro c' x' _ hc' hx'
        obtain rfl : some c = c' := Option.some.inj (hc.symm.trans hc')
        obtain rfl : x = x' := Option.some.inj (hx.symm.trans hx')
        exact .some heval
    · use none
      intro c x hi hc hx
      cases c with
      | none => exact .none x
      | some c => exact absurd ⟨c, x, hi, hc, hx⟩ hcond
  choose change hchange using hrow
  exact ⟨change, hchange⟩

theorem exists_conditions_of_not_refusesAt (hanswers : ∀ c, some c ∈ conditioners → c.Answers)
    (h : ∀ i, ¬RefusesAt conditioners r i) :
    ∃ change : ℕ → Option (RowChange α), ∀ i c x, conditioners[i]? = some c → r[i]? = some x →
      Conditions c x (change i) := by
  obtain ⟨change, hchange⟩ := exists_conditions_before hanswers (k := conditioners.length) fun i _ => h i
  exact ⟨change, fun i c x hc => hchange i c x (List.getElem?_eq_some_iff.mp hc).1 hc⟩

end Rows

section Run

variable [Scalar α] {wrapped : CostFunction α} {conditioners : List (Option (CostFunction α))}
  {blocks : List (Block α)} {request : Request} {e : Evaluation α} {k : ℕ} {change : ℕ → Option (RowChange α)}

/-- The first refusal ends the run: the rows before it are changed, and no others. -/
theorem conditionFrom_of_refusesAt (h : RefusesAt conditioners e.residual k)
    (hchange : ∀ i c x, i < k → conditioners[i]? = some c → e.residual[i]? = some x → Conditions c x (change i)) :
    conditionFrom 0 conditioners e = .ok { e.rewrite (before k change) with ok := false } := by
  obtain ⟨c, x, inner, hc, hx, heval, hok⟩ := h
  obtain ⟨hlt, hget⟩ := List.getElem?_eq_some_iff.mp hc
  obtain ⟨hrow, -⟩ := List.getElem?_eq_some_iff.mp hx
  have hsplit : conditioners = conditioners.take k ++ some c :: conditioners.drop (k + 1) := by
    rw [← hget, List.getElem_cons_drop, List.take_append_drop]
  have hlength : (conditioners.take k).length = k := List.length_take_of_le hlt.le
  have hhead := conditionFrom_append change e 0 (conditioners.take k) (some c :: conditioners.drop (k + 1))
    fun i c' hc' => by
      have hi : i < k := hlength ▸ (List.getElem?_eq_some_iff.mp hc').1
      rw [List.getElem?_take_of_lt hi] at hc'
      rw [Nat.zero_add, List.getD_eq_getElem?_getD, List.getElem?_eq_getElem (hi.trans hrow)]
      exact hchange i c' _ hi hc' (List.getElem?_eq_getElem (hi.trans hrow))
  rw [Evaluation.rewrite_before_zero, ← hsplit, hlength, Nat.zero_add] at hhead
  -- The conditioner that refuses sees the residual as the wrapped cost wrote it.
  have hresidual : (e.rewrite (before k change)).residual.getD k 0 = x := by
    rw [Evaluation.rewrite_before_getD, List.getD_eq_getElem?_getD, hx, Option.getD_some]
  rw [hhead, conditionFrom, hresidual, heval]
  simp [bind, Except.bind, hok, pure, Except.pure]

theorem evaluate_condition_of_refusesAt (he : wrapped.evaluate blocks request = .ok e) (hok : e.ok = true)
    (h : RefusesAt conditioners e.residual k)
    (hchange : ∀ i c x, i < k → conditioners[i]? = some c → e.residual[i]? = some x → Conditions c x (change i)) :
    (wrapped.condition conditioners).evaluate blocks request =
      .ok { e.rewrite (before k change) with ok := false } := by
  have hrun : (if e.ok then conditionFrom 0 conditioners e else pure e) =
      .ok { e.rewrite (before k change) with ok := false } := by
    rw [if_pos hok]
    exact conditionFrom_of_refusesAt h hchange
  exact bind_eq_ok.mpr ⟨e, he, hrun⟩

/-- The first refusal decides the evaluation, whatever conditioners follow. -/
theorem FirstRefusal.evaluate_eq (hk : FirstRefusal conditioners e.residual k)
    (hanswers : ∀ c, some c ∈ conditioners → c.Answers) (he : wrapped.evaluate blocks request = .ok e)
    (hok : e.ok = true) :
    ∃ change : ℕ → Option (RowChange α),
      (∀ i c x, i < k → conditioners[i]? = some c → e.residual[i]? = some x → Conditions c x (change i)) ∧
      ∀ conditioners' : List (Option (CostFunction α)), (∀ i ≤ k, conditioners'[i]? = conditioners[i]?) →
        (wrapped.condition conditioners').evaluate blocks request =
          .ok { e.rewrite (before k change) with ok := false } := by
  obtain ⟨change, hchange⟩ := exists_conditions_before hanswers fun i => hk.least
  refine ⟨change, hchange, fun conditioners' hsame => ?_⟩
  apply evaluate_condition_of_refusesAt he hok (hk.refuses.congr (hsame k le_rfl))
  intro i c x hi hc hx
  exact hchange i c x hi ((hsame i hi.le).symm.trans hc) hx

theorem evaluate_condition_of_not_ok (he : wrapped.evaluate blocks request = .ok e) (hok : e.ok = false) :
    (wrapped.condition conditioners).evaluate blocks request = .ok e := by
  have hrun : (if e.ok then conditionFrom 0 conditioners e else pure e) = .ok e := by
    rw [hok]
    rfl
  exact bind_eq_ok.mpr ⟨e, he, hrun⟩

/-- A run without refusals changes all rows. -/
theorem evaluate_condition_of_conditions (he : wrapped.evaluate blocks request = .ok e) (hok : e.ok = true)
    (hlength : conditioners.length = e.residual.length)
    (hchange : ∀ i c x, conditioners[i]? = some c → e.residual[i]? = some x → Conditions c x (change i)) :
    (wrapped.condition conditioners).evaluate blocks request =
      .ok (e.rewrite (before conditioners.length change)) := by
  apply evaluate_condition_eq he hok
  intro i c hc
  have hi : i < e.residual.length := hlength ▸ (List.getElem?_eq_some_iff.mp hc).1
  rw [List.getD_eq_getElem?_getD, List.getElem?_eq_getElem hi]
  exact hchange i c _ hc (List.getElem?_eq_getElem hi)

theorem exists_evaluate_condition_of_not_refusesAt (hanswers : ∀ c, some c ∈ conditioners → c.Answers)
    (he : wrapped.evaluate blocks request = .ok e) (hok : e.ok = true)
    (hlength : conditioners.length = e.residual.length) (h : ∀ i, ¬RefusesAt conditioners e.residual i) :
    ∃ e', (wrapped.condition conditioners).evaluate blocks request = .ok e' ∧ e'.ok = true := by
  obtain ⟨change, hchange⟩ := exists_conditions_of_not_refusesAt hanswers h
  exact ⟨_, evaluate_condition_of_conditions he hok hlength hchange, hok⟩

end Run

theorem isScalar_iff {c : CostFunction α} : c.isScalar = true ↔ c.numResiduals = 1 ∧ c.blockSizes = [1] := by
  simp [isScalar]

section Answers

variable [Scalar α]

theorem answers_linear (scale : α) : (linear scale).Answers := fun r => ⟨true, scale * r, scale, rfl⟩

theorem answers_stub (x : α) (ok : Bool) : (stub [x] [1] ok).Answers := fun _ => ⟨ok, x, 1, rfl⟩

/-- A conditioned conditioner, where the one inside succeeds: the derivatives are multiplied, unless the outer one
refuses. -/
theorem evaluate_condition_single {c d : CostFunction α} {x value factor : α} {inner : Evaluation α}
    (hc : c.evaluate [[x]] (some [true]) = .ok ⟨true, [value], some [some [[factor]]]⟩)
    (hd : d.evaluate [[value]] (some [true]) = .ok inner) :
    (c.condition [some d]).evaluate [[x]] (some [true]) =
      .ok (if inner.ok then ⟨true, [inner.value], some [some [[factor * inner.derivative]]]⟩
        else ⟨false, [value], some [some [[factor]]]⟩) := by
  have hinner : d.evaluate [[[value].getD 0 0]] (some [true]) = .ok inner := hd
  refine bind_eq_ok.mpr ⟨_, hc, ?_⟩
  rw [if_pos rfl, conditionFrom, hinner]
  cases hok : inner.ok <;> simp [bind, Except.bind, hok] <;> rfl

theorem Answers.condition {c : CostFunction α} (hc : c.Answers) {d : Option (CostFunction α)}
    (hd : ∀ d', d = some d' → d'.Answers) : (c.condition [d]).Answers := by
  intro x
  obtain ⟨ok, value, factor, heval⟩ := hc x
  cases ok with
  | false => exact ⟨false, value, factor, evaluate_condition_of_not_ok heval rfl⟩
  | true =>
    cases d with
    | none => exact ⟨true, value, factor, bind_eq_ok.mpr ⟨_, heval, rfl⟩⟩
    | some d =>
      obtain ⟨ok', value', factor', heval'⟩ := hd d rfl value
      have hsingle := evaluate_condition_single heval heval'
      cases ok' with
      | false => exact ⟨false, value, factor, hsingle⟩
      | true => exact ⟨true, value', factor * factor', hsingle⟩

end Answers

end CostFunction

/-- No measurement depends on a single number. -/
theorem Measurement.blockSizes_ne_singleton {α : Type} (m : Measurement α) : m.blockSizes ≠ [1] := by
  cases m <;> simp [blockSizes]

namespace Cost

mutual

/-- Every conditioned cost in it passed the check of its conditioners. -/
def IsChecked : Cost Float → Prop
  | conditioned wrapped conditioners => IsChecked wrapped ∧ AreChecked conditioners ∧
      wrapped.function.checkConditioners (functions conditioners) = .ok ()
  | _ => True

def AreChecked : List (Option (Cost Float)) → Prop
  | [] => True
  | none :: rest => AreChecked rest
  | some c :: rest => IsChecked c ∧ AreChecked rest

end

mutual

/-- Every scalar cost that passed the checks answers. -/
theorem answers_function : (c : Cost Float) → c.IsChecked → c.function.isScalar = true → c.function.Answers
  | measurement m kernel, _, hscalar => by
    rw [function] at hscalar
    have hsizes : (m.map Flushed.mk).blockSizes = [1] := (CostFunction.isScalar_iff.mp hscalar).2
    exact absurd hsizes (Measurement.blockSizes_ne_singleton _)
  | linear scale, _, _ => by
    rw [function]
    exact CostFunction.answers_linear scale
  | conditioned wrapped conditioners, hchecked, hscalar => by
    rw [IsChecked] at hchecked
    rw [function] at hscalar ⊢
    obtain ⟨hwrapped, hconditioners, hcheck⟩ := hchecked
    obtain ⟨hlength, hscalars⟩ := CostFunction.checkConditioners_eq_ok hcheck
    have hone : wrapped.function.numResiduals = 1 := (CostFunction.isScalar_iff.mp hscalar).1
    obtain ⟨d, hd⟩ := List.length_eq_one_iff.mp (hlength.trans hone)
    have hanswers := answers_functions conditioners hconditioners hscalars
    rw [hd] at hanswers ⊢
    exact (answers_function wrapped hwrapped hscalar).condition fun d' h => hanswers d' (h ▸ List.mem_singleton_self _)
  | stub residual blockSizes ok, _, hscalar => by
    rw [function] at hscalar ⊢
    obtain ⟨hlength, hsizes⟩ : residual.length = 1 ∧ blockSizes = [1] := CostFunction.isScalar_iff.mp hscalar
    obtain ⟨x, rfl⟩ := List.length_eq_one_iff.mp hlength
    subst hsizes
    exact CostFunction.answers_stub x ok

theorem answers_functions : (cs : List (Option (Cost Float))) → AreChecked cs →
    (∀ c, some c ∈ functions cs → c.isScalar = true) → ∀ c, some c ∈ functions cs → c.Answers
  | [], _, _, c, hc => by
    rw [functions] at hc
    simp at hc
  | none :: rest, hchecked, hscalar, c, hc => by
    rw [AreChecked] at hchecked
    rw [functions] at hscalar hc
    have hmem : some c ∈ functions rest := by simpa using hc
    exact answers_functions rest hchecked (fun c h => hscalar c (List.mem_cons_of_mem _ h)) c hmem
  | some d :: rest, hchecked, hscalar, c, hc => by
    rw [AreChecked] at hchecked
    rw [functions] at hscalar hc
    rcases List.mem_cons.mp hc with h | hmem
    · obtain rfl : c = d.function := Option.some.inj h
      exact answers_function d hchecked.1 (hscalar _ List.mem_cons_self)
    · exact answers_functions rest hchecked.2 (fun c h => hscalar c (List.mem_cons_of_mem _ h)) c hmem

end

end Cost

/-- A conditioned cost reports failure exactly if the wrapped cost does, or some conditioner does at the residual that
the wrapped cost wrote. A failure of the wrapped cost leaves everything as that cost wrote it. The first refusal of a
conditioner leaves the rows before it conditioned and the rows from it on as they were, whatever conditioners follow. -/
theorem CostFunction.evaluate_condition_refusals {α : Type} [Scalar α] {wrapped : CostFunction α}
    {conditioners : List (Option (CostFunction α))} {blocks : List (Block α)} {request : Request} {e : Evaluation α}
    (hcheck : wrapped.checkConditioners conditioners = .ok ())
    (hanswers : ∀ c, some c ∈ conditioners → c.Answers) (he : wrapped.evaluate blocks request = .ok e)
    (hresidual : e.residual.length = wrapped.numResiduals) :
    ∃ e', (wrapped.condition conditioners).evaluate blocks request = .ok e' ∧
      (e'.ok = false ↔ e.ok = false ∨ ∃ i, RefusesAt conditioners e.residual i) ∧
      (e.ok = false → e' = e) ∧
      ∀ k, e.ok = true → FirstRefusal conditioners e.residual k →
        (∃ change : ℕ → Option (RowChange α),
          (∀ i c x, i < k → conditioners[i]? = some c → e.residual[i]? = some x → Conditions c x (change i)) ∧
          e' = { e.rewrite (before k change) with ok := false }) ∧
        ∀ conditioners' : List (Option (CostFunction α)), (∀ i ≤ k, conditioners'[i]? = conditioners[i]?) →
          (wrapped.condition conditioners').evaluate blocks request = .ok e' := by
  cases hok : e.ok with
  | false => exact ⟨e, evaluate_condition_of_not_ok he hok, by simp [hok], fun _ => rfl, by simp⟩
  | true =>
    by_cases hrefuses : ∃ i, RefusesAt conditioners e.residual i
    · obtain ⟨k, hk⟩ := hrefuses.choose_spec.exists_first
      obtain ⟨change, hchange, heval⟩ := hk.evaluate_eq hanswers he hok
      refine ⟨_, heval conditioners fun _ _ => rfl, by simpa using hrefuses, by simp, ?_⟩
      intro l _ hl
      obtain rfl := hk.unique hl
      exact ⟨⟨change, hchange, rfl⟩, heval⟩
    · have hnone : ∀ i, ¬RefusesAt conditioners e.residual i := not_exists.mp hrefuses
      have hlength : conditioners.length = e.residual.length :=
        (checkConditioners_eq_ok hcheck).1.trans hresidual.symm
      obtain ⟨e', heval, hok'⟩ := exists_evaluate_condition_of_not_refusesAt hanswers he hok hlength hnone
      exact ⟨e', heval, by simp [hok', hnone], by simp, fun k _ hk => absurd hk.refuses (hnone k)⟩

namespace Cost

def triple : Cost Float := .stub [2, 3, 5] [1, 2] true

/-- The first residual is doubled, the second is refused, and the third would be tripled. -/
def refusingSecond : List (Option (Cost Float)) := [some (.linear 2), some (.stub [7] [1] false), some (.linear 3)]

theorem firstRefusal_refusingSecond : CostFunction.FirstRefusal (functions refusingSecond) [2, 3, 5] 1 where
  refuses := ⟨_, _, _, rfl, rfl, rfl, rfl⟩
  least {i} hi := by
    obtain rfl : i = 0 := by omega
    rintro ⟨c, x, inner, hc, -, heval, hok⟩
    obtain rfl : CostFunction.linear 2 = c := Option.some.inj (Option.some.inj hc)
    rw [(CostFunction.evaluate_linear heval).1] at hok
    nomatch hok

/-- Only the first row is conditioned. -/
theorem evaluate_condition_refusingSecond :
    triple.function.checkConditioners (functions refusingSecond) = .ok () ∧
      (∀ c, some c ∈ functions refusingSecond → c.Answers) ∧
      triple.function.evaluate [[0], [0, 0]] (some [true, false]) =
        .ok ⟨true, [2, 3, 5], some [some [[1], [1], [1]], none]⟩ ∧
      CostFunction.FirstRefusal (functions refusingSecond) [2, 3, 5] 1 ∧
      ∃ change : ℕ → Option (RowChange Float), CostFunction.Conditions (some (.linear 2)) 2 (change 0) ∧
        (conditioned triple refusingSecond).function.evaluate [[0], [0, 0]] (some [true, false]) =
          .ok { (Evaluation.mk true [2, 3, 5] (some [some [[1], [1], [1]], none])).rewrite (before 1 change) with
            ok := false } := by
  have hcheck : triple.function.checkConditioners (functions refusingSecond) = .ok () := rfl
  have hchecked : AreChecked refusingSecond := by simp [refusingSecond, AreChecked, IsChecked]
  have hanswers : ∀ c, some c ∈ functions refusingSecond → c.Answers :=
    answers_functions _ hchecked (CostFunction.checkConditioners_eq_ok hcheck).2
  have he : triple.function.evaluate [[0], [0, 0]] (some [true, false]) =
      .ok ⟨true, [2, 3, 5], some [some [[1], [1], [1]], none]⟩ := rfl
  obtain ⟨e', heval, -, -, hfirst⟩ := CostFunction.evaluate_condition_refusals hcheck hanswers he rfl
  obtain ⟨⟨change, hchange, rfl⟩, -⟩ := hfirst 1 rfl firstRefusal_refusingSecond
  exact ⟨hcheck, hanswers, he, firstRefusal_refusingSecond, change, hchange 0 _ _ Nat.one_pos rfl rfl, heval⟩

end Cost

end BundleAdjustment
