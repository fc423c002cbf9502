import BundleAdjustment.Proofs.Cost.Refusal
import BundleAdjustment.Proofs.Exact.Scalar

/-! # Conditioning twice

A conditioned cost may be conditioned again. Row by row, this is the same as conditioning once, by conditioners that are
conditioned themselves: the second one sees what the first one wrote, and the derivatives are multiplied.
-/

namespace BundleAdjustment

open Outcome

section FollowedBy

variable {α : Type} [Scalar α]

def RowChange.followedBy (f g : RowChange α) : RowChange α where
  value := g.value
  factor := f.factor * g.factor

def CostFunction.followedBy (c d : CostFunction α) : CostFunction α := c.condition [some d]

/-- Row by row, the conditioner of the first list and then that of the second, where there are both. -/
def CostFunction.compose (cs ds : List (Option (CostFunction α))) : List (Option (CostFunction α)) :=
  List.zipWith (Option.merge followedBy) cs ds

end FollowedBy

namespace Evaluation

variable {α : Type}

theorem rewriteResidual_rewriteResidual [Scalar α] (f g : ℕ → Option (RowChange α)) (r : List α) :
    rewriteResidual g (rewriteResidual f r) = rewriteResidual (fun i => (f i).merge .followedBy (g i)) r := by
  refine List.ext_getElem (by simp [rewriteResidual]) fun i _ _ => ?_
  cases hf : f i <;> cases hg : g i <;> simp [rewriteResidual, RowChange.followedBy, hf, hg]

/-- Changes of all rows, of which each is before the end. -/
theorem rewriteResidual_before (f : ℕ → Option (RowChange α)) (r : List α) :
    rewriteResidual (before r.length f) r = rewriteResidual f r :=
  List.ext_getElem (by simp [rewriteResidual]) fun i hi _ => by
    have hlt : i < r.length := by simpa [rewriteResidual] using hi
    simp [rewriteResidual, before_of_lt f hlt]

variable [ExactScalar α]

theorem rewriteRows_rewriteRows (f g : ℕ → Option (RowChange α)) (rows : List (List α)) :
    rewriteRows g (rewriteRows f rows) = rewriteRows (fun i => (f i).merge .followedBy (g i)) rows := by
  refine List.ext_getElem (by simp [rewriteRows]) fun i _ _ => ?_
  -- Where both changes are made, `comp_mul_right` takes the two factors together.
  cases hf : f i <;> cases hg : g i <;> simp [rewriteRows, RowChange.followedBy, hf, hg]

theorem rewrite_rewrite (f g : ℕ → Option (RowChange α)) (e : Evaluation α) :
    (e.rewrite f).rewrite g = e.rewrite fun i => (f i).merge .followedBy (g i) := by
  have hrows : rewriteRows g ∘ rewriteRows f = rewriteRows fun i => (f i).merge .followedBy (g i) :=
    funext (rewriteRows_rewriteRows f g)
  simp [rewrite, rewriteResidual_rewriteResidual, Function.comp_def, ← hrows]

end Evaluation

theorem before_merge {α : Type} [Scalar α] (row : ℕ) (f g : ℕ → Option (RowChange α)) :
    (fun i => (before row f i).merge .followedBy (before row g i)) =
      before row fun i => (f i).merge .followedBy (g i) := by
  funext i
  by_cases h : i < row
  · simp only [before_of_lt _ h]
  · simp [before, h]

namespace CostFunction

variable {α : Type} {cs ds : List (Option (CostFunction α))}

theorem checkConditioners_of_scalar {wrapped : CostFunction α} (hlength : cs.length = wrapped.numResiduals)
    (hscalar : ∀ c, some c ∈ cs → c.isScalar = true) : wrapped.checkConditioners cs = .ok () := by
  have hfind : cs.findIdx? (fun c => c.any fun c => !c.isScalar) = none := by
    rw [List.findIdx?_eq_none_iff]
    intro c hc
    cases c with
    | none => rfl
    | some c => simp [hscalar c hc]
  rw [checkConditioners, if_neg (not_not_intro hlength), hfind]
  rfl

variable [Scalar α]

theorem getElem?_compose {i : ℕ} {c : Option (CostFunction α)} :
    (compose cs ds)[i]? = some c ↔
      ∃ c' d', cs[i]? = some c' ∧ ds[i]? = some d' ∧ c'.merge followedBy d' = c :=
  List.getElem?_zipWith_eq_some

theorem length_compose (h : cs.length = ds.length) : (compose cs ds).length = cs.length := by
  simp [compose, h]

/-- What holds of the conditioners of both lists and of one followed by another holds of the composed ones. -/
theorem forall_mem_compose {p : CostFunction α → Prop} (hcs : ∀ c, some c ∈ cs → p c) (hds : ∀ d, some d ∈ ds → p d)
    (hp : ∀ c d, p c → p d → p (c.followedBy d)) (c : CostFunction α) (hc : some c ∈ compose cs ds) : p c := by
  obtain ⟨i, hi⟩ := List.mem_iff_getElem?.mp hc
  obtain ⟨c', d', hc', hd', hmerge⟩ := getElem?_compose.mp hi
  have hfirst := List.mem_of_getElem? hc'
  have hsecond := List.mem_of_getElem? hd'
  cases c' with
  | none =>
    obtain rfl : d' = some c := by simpa using hmerge
    exact hds c hsecond
  | some c' =>
    cases d' with
    | none =>
      obtain rfl : c' = c := by simpa using hmerge
      exact hcs c' hfirst
    | some d' =>
      obtain rfl : c'.followedBy d' = c := by simpa using hmerge
      exact hp c' d' (hcs c' hfirst) (hds d' hsecond)

/-- The second conditioner is applied to what the first one leaves. -/
theorem Conditions.followedBy {c d : Option (CostFunction α)} {x : α} {f g : Option (RowChange α)}
    (hf : Conditions c x f) (hg : Conditions d (f.elim x RowChange.value) g) :
    Conditions (c.merge .followedBy d) x (f.merge .followedBy g) := by
  cases hf with
  | none => simpa using hg
  | some hc =>
    cases hg with
    | none => simpa using Conditions.some hc
    | some hd => exact .some (evaluate_condition_single hc hd)

/-- Where the first conditioner refuses, so does the composed one. -/
theorem RefusesAt.compose_left {r : List α} {i : ℕ} (h : RefusesAt cs r i) (hi : i < ds.length) :
    RefusesAt (compose cs ds) r i := by
  obtain ⟨c, x, inner, hc, hx, heval, hok⟩ := h
  have hcompose : (compose cs ds)[i]? = some ((some c).merge followedBy ds[i]) :=
    getElem?_compose.mpr ⟨_, _, hc, List.getElem?_eq_getElem hi, rfl⟩
  cases hd : ds[i] with
  | none => exact ⟨c, x, inner, by simp [hcompose, hd], hx, heval, hok⟩
  | some d =>
    exact ⟨c.followedBy d, x, inner, by simp [hcompose, hd], hx, evaluate_condition_of_not_ok heval hok, hok⟩

/-- Where the second conditioner refuses what the first one wrote, the composed one refuses the residual as it was. -/
theorem RefusesAt.compose_right {r : List α} {i : ℕ} {change : ℕ → Option (RowChange α)}
    (h : RefusesAt ds (Evaluation.rewriteResidual change r) i)
    (hchange : ∀ c x, cs[i]? = some c → r[i]? = some x → Conditions c x (change i)) (hi : i < cs.length) :
    RefusesAt (compose cs ds) r i := by
  obtain ⟨d, y, inner, hd, hy, heval, hok⟩ := h
  obtain ⟨x, hx, rfl⟩ : ∃ x, r[i]? = some x ∧ (change i).elim x RowChange.value = y := by
    simpa [Evaluation.rewriteResidual] using hy
  have hcompose : (compose cs ds)[i]? = some (cs[i].merge followedBy (some d)) :=
    getElem?_compose.mpr ⟨_, _, List.getElem?_eq_getElem hi, hd, rfl⟩
  have hconditions := hchange cs[i] x (List.getElem?_eq_getElem hi) hx
  generalize cs[i] = c at hcompose hconditions
  generalize change i = f at heval hconditions
  cases hconditions with
  | none => exact ⟨d, x, inner, by simpa using hcompose, hx, heval, hok⟩
  | some hc =>
    refine ⟨_, x, _, hcompose, hx, evaluate_condition_single hc heval, ?_⟩
    rw [hok]
    rfl

theorem exists_evaluate_condition_of_refusesAt {wrapped : CostFunction α} {blocks : List (Block α)} {request : Request}
    {e : Evaluation α} {i : ℕ} (h : RefusesAt cs e.residual i) (hanswers : ∀ c, some c ∈ cs → c.Answers)
    (he : wrapped.evaluate blocks request = .ok e) (hok : e.ok = true) :
    ∃ e', (wrapped.condition cs).evaluate blocks request = .ok e' ∧ e'.ok = false := by
  obtain ⟨k, hk⟩ := h.exists_first
  obtain ⟨change, -, heval⟩ := hk.evaluate_eq hanswers he hok
  exact ⟨_, heval cs fun _ _ => rfl, rfl⟩

end CostFunction

/-- Both evaluations report the same, and where they report success they wrote the same. -/
structure Evaluation.SameWhereTrue {α : Type} (e e' : Evaluation α) : Prop where
  ok : e.ok = e'.ok
  written : e.ok = true → e = e'

theorem Evaluation.SameWhereTrue.of_not_ok {α : Type} {e e' : Evaluation α} (he : e.ok = false) (he' : e'.ok = false) :
    e.SameWhereTrue e' where
  ok := he.trans he'.symm
  written hok := by simp [he] at hok

namespace CostFunction

open Evaluation

variable {α : Type} [ExactScalar α] {wrapped : CostFunction α} {cs ds : List (Option (CostFunction α))}
  {blocks : List (Block α)} {request : Request} {e : Evaluation α}

/-- Conditioners that all succeed, followed by others that do, change each row as the composed ones. -/
theorem evaluate_condition_compose {f g : ℕ → Option (RowChange α)}
    (he : wrapped.evaluate blocks request = .ok e) (hok : e.ok = true)
    (hcs : cs.length = e.residual.length) (hds : ds.length = e.residual.length)
    (hf : ∀ i c x, cs[i]? = some c → e.residual[i]? = some x → Conditions c x (f i))
    (hg : ∀ i d y, ds[i]? = some d → (rewriteResidual f e.residual)[i]? = some y → Conditions d y (g i)) :
    ∃ e', ((wrapped.condition cs).condition ds).evaluate blocks request = .ok e' ∧
      (wrapped.condition (compose cs ds)).evaluate blocks request = .ok e' := by
  have hcompose : (compose cs ds).length = e.residual.length := (length_compose (hcs.trans hds.symm)).trans hcs
  have hfirst := evaluate_condition_of_conditions he hok hcs hf
  rw [hcs] at hfirst
  have htwice : ((wrapped.condition cs).condition ds).evaluate blocks request =
      .ok ((e.rewrite (before e.residual.length f)).rewrite (before ds.length g)) := by
    apply evaluate_condition_of_conditions hfirst hok
    · simpa [rewrite, rewriteResidual] using hds
    · rwa [rewrite, rewriteResidual_before]
  have honce : (wrapped.condition (compose cs ds)).evaluate blocks request =
      .ok (e.rewrite (before (compose cs ds).length fun i => (f i).merge .followedBy (g i))) := by
    apply evaluate_condition_of_conditions he hok hcompose
    intro i c x hc hx
    obtain ⟨c', d', hc', hd', rfl⟩ := getElem?_compose.mp hc
    exact (hf i c' x hc' hx).followedBy (hg i d' _ hd' (by simp [rewriteResidual, hx]))
  rw [rewrite_rewrite, hds, before_merge] at htwice
  rw [hcompose] at honce
  exact ⟨_, htwice, honce⟩

/-- A refusal of a composed conditioner, where the second conditioning failed too. -/
theorem exists_sameWhereTrue_of_refusesAt {i : ℕ} {e' : Evaluation α} (h : RefusesAt (compose cs ds) e.residual i)
    (hanswers : ∀ c, some c ∈ compose cs ds → c.Answers) (he : wrapped.evaluate blocks request = .ok e)
    (hok : e.ok = true) (htwice : ((wrapped.condition cs).condition ds).evaluate blocks request = .ok e')
    (hok' : e'.ok = false) :
    ∃ twice once, ((wrapped.condition cs).condition ds).evaluate blocks request = .ok twice ∧
      (wrapped.condition (compose cs ds)).evaluate blocks request = .ok once ∧ twice.SameWhereTrue once := by
  obtain ⟨once, honce, hokonce⟩ := exists_evaluate_condition_of_refusesAt h hanswers he hok
  exact ⟨e', once, htwice, honce, .of_not_ok hok' hokonce⟩

theorem exists_sameWhereTrue_compose (hanswersLeft : ∀ c, some c ∈ cs → c.Answers)
    (hanswersRight : ∀ d, some d ∈ ds → d.Answers) (he : wrapped.evaluate blocks request = .ok e)
    (hcs : cs.length = e.residual.length) (hds : ds.length = e.residual.length) :
    ∃ twice once, ((wrapped.condition cs).condition ds).evaluate blocks request = .ok twice ∧
      (wrapped.condition (compose cs ds)).evaluate blocks request = .ok once ∧ twice.SameWhereTrue once := by
  have hanswers : ∀ c, some c ∈ compose cs ds → c.Answers :=
    forall_mem_compose hanswersLeft hanswersRight fun c d hc hd => hc.condition (by rintro _ ⟨⟩; exact hd)
  cases hok : e.ok with
  | false =>
    have hfirst : (wrapped.condition cs).evaluate blocks request = .ok e := evaluate_condition_of_not_ok he hok
    exact ⟨e, e, evaluate_condition_of_not_ok hfirst hok, evaluate_condition_of_not_ok he hok, .of_not_ok hok hok⟩
  | true =>
    by_cases hleft : ∃ i, RefusesAt cs e.residual i
    · -- A conditioner of the first list refuses, so that the second list is not looked at.
      obtain ⟨i, hi⟩ := hleft
      obtain ⟨e', hfirst, hok'⟩ := exists_evaluate_condition_of_refusesAt hi hanswersLeft he hok
      have hlt : i < ds.length := hds ▸ hcs ▸ hi.lt_length
      exact exists_sameWhereTrue_of_refusesAt (hi.compose_left hlt) hanswers he hok
        (evaluate_condition_of_not_ok hfirst hok') hok'
    · obtain ⟨f, hf⟩ := exists_conditions_of_not_refusesAt hanswersLeft (not_exists.mp hleft)
      by_cases hright : ∃ i, RefusesAt ds (rewriteResidual f e.residual) i
      · -- A conditioner of the second list refuses what the first list wrote.
        obtain ⟨i, hi⟩ := hright
        have hfirst := evaluate_condition_of_conditions he hok hcs hf
        rw [hcs] at hfirst
        obtain ⟨e', htwice, hok'⟩ := exists_evaluate_condition_of_refusesAt
          (by rwa [rewrite, rewriteResidual_before]) hanswersRight hfirst hok
        have hlt : i < cs.length := hcs ▸ hds ▸ hi.lt_length
        exact exists_sameWhereTrue_of_refusesAt (hi.compose_right (hf i) hlt) hanswers he hok htwice hok'
      · obtain ⟨g, hg⟩ := exists_conditions_of_not_refusesAt hanswersRight (not_exists.mp hright)
        obtain ⟨e', htwice, honce⟩ := evaluate_condition_compose he hok hcs hds hf hg
        exact ⟨e', e', htwice, honce, rfl, fun _ => rfl⟩

/-- Conditioning twice is conditioning once, by the conditioners of the first list that are conditioned by those of the
second. Both report the same, and where they report success they write the same residuals and Jacobians. -/
theorem evaluate_condition_condition (hcs : wrapped.checkConditioners cs = .ok ())
    (hds : (wrapped.condition cs).checkConditioners ds = .ok ())
    (hanswersLeft : ∀ c, some c ∈ cs → c.Answers) (hanswersRight : ∀ d, some d ∈ ds → d.Answers)
    (hresidual : ∀ e, wrapped.evaluate blocks request = .ok e → e.residual.length = wrapped.numResiduals) :
    (∀ c d, some c ∈ cs → some d ∈ ds → c.checkConditioners [some d] = .ok ()) ∧
      wrapped.checkConditioners (compose cs ds) = .ok () ∧
      (∀ fault, wrapped.evaluate blocks request = .error fault →
        ((wrapped.condition cs).condition ds).evaluate blocks request = .error fault ∧
          (wrapped.condition (compose cs ds)).evaluate blocks request = .error fault) ∧
      ∀ e, wrapped.evaluate blocks request = .ok e →
        ∃ twice once, ((wrapped.condition cs).condition ds).evaluate blocks request = .ok twice ∧
          (wrapped.condition (compose cs ds)).evaluate blocks request = .ok once ∧ twice.SameWhereTrue once := by
  obtain ⟨hlengthLeft, hscalarLeft⟩ := checkConditioners_eq_ok hcs
  obtain ⟨hlengthRight, hscalarRight⟩ := checkConditioners_eq_ok hds
  have hlength : cs.length = ds.length := hlengthLeft.trans hlengthRight.symm
  have hnested (c d : CostFunction α) (hc : c.isScalar = true) (hd : d.isScalar = true) :
      c.checkConditioners [some d] = .ok () :=
    checkConditioners_of_scalar (isScalar_iff.mp hc).1.symm (by simpa using hd)
  refine ⟨fun c d hc hd => hnested c d (hscalarLeft c hc) (hscalarRight d hd), ?_, ?_, ?_⟩
  · exact checkConditioners_of_scalar ((length_compose hlength).trans hlengthLeft)
      (forall_mem_compose hscalarLeft hscalarRight fun _ _ hc _ => hc)
  · intro fault hfault
    simp [condition, hfault, bind, Except.bind]
  · intro e he
    have hrows := hresidual e he
    exact exists_sameWhereTrue_compose hanswersLeft hanswersRight he (hlengthLeft.trans hrows.symm)
      (hlengthRight.trans hrows.symm)

noncomputable def ones : CostFunction ℝ := stub [1, 1, 1, 1] [1] true

noncomputable def negation : CostFunction ℝ := linear (-1)

noncomputable def negateUpper : List (Option (CostFunction ℝ)) := [some negation, some negation, none, none]

noncomputable def negateOdd : List (Option (CostFunction ℝ)) := [some negation, none, some negation, none]

/-- The first residual is negated twice, the second and the third are negated once, and the last is left alone. -/
theorem evaluate_condition_condition_negation :
    ones.checkConditioners negateUpper = .ok () ∧ (ones.condition negateUpper).checkConditioners negateOdd = .ok () ∧
      (∀ c, some c ∈ negateUpper ++ negateOdd → c.Answers) ∧
      ∃ e, ((ones.condition negateUpper).condition negateOdd).evaluate [[0]] (some [true]) = .ok e ∧ e.ok = true ∧
        (ones.condition [some (negation.condition [some negation]), some negation, some negation, none]).evaluate
          [[0]] (some [true]) = .ok e := by
  have hfirst : ones.checkConditioners negateUpper = .ok () := rfl
  have hsecond : (ones.condition negateUpper).checkConditioners negateOdd = .ok () := rfl
  have hanswers : ∀ c, some c ∈ negateUpper ++ negateOdd → c.Answers := by
    intro c hc
    obtain rfl : negation = c := by simpa [negateUpper, negateOdd, eq_comm] using hc
    exact answers_linear _
  have hresidual : ∀ e, ones.evaluate [[0]] (some [true]) = .ok e → e.residual.length = ones.numResiduals := by
    rintro _ ⟨⟩
    rfl
  obtain ⟨-, -, -, hall⟩ := evaluate_condition_condition hfirst hsecond
    (fun c hc => hanswers c (List.mem_append_left _ hc)) (fun c hc => hanswers c (List.mem_append_right _ hc)) hresidual
  obtain ⟨twice, once, htwice, honce, hsame⟩ := hall _ rfl
  have hok : twice.ok = true := by
    cases htwice
    rfl
  exact ⟨hfirst, hsecond, hanswers, twice, htwice, hok, hsame.written hok ▸ honce⟩

end CostFunction

end BundleAdjustment
