import Mathlib.Data.List.Basic

/-! # Outcomes

Computations that may fail, opened where they did not.
-/

namespace BundleAdjustment.Outcome

variable {ε α β : Type}

theorem bind_eq_ok {x : Except ε α} {f : α → Except ε β} {b : β} :
    x >>= f = .ok b ↔ ∃ a, x = .ok a ∧ f a = .ok b := by
  cases x with
  | error e => simp [bind, Except.bind]
  | ok a => simp [bind, Except.bind]

theorem map_eq_ok {x : Except ε α} {f : α → β} {b : β} : x.map f = .ok b ↔ ∃ a, x = .ok a ∧ f a = b := by
  cases x <;> simp [Except.map]

theorem mapM_eq_ok {f : α → Except ε β} {g : α → β} {xs : List α} (h : ∀ x ∈ xs, f x = .ok (g x)) :
    xs.mapM f = .ok (xs.map g) := by
  induction xs with
  | nil => rfl
  | cons x xs ih =>
    rw [List.mapM_cons, h x List.mem_cons_self, ih fun y hy => h y (List.mem_cons_of_mem x hy)]
    rfl

theorem map_mapM {γ : Type} (g : β → γ) (f : α → Except ε β) (xs : List α) :
    xs.mapM (fun x => (f x).map g) = (xs.mapM f).map (List.map g) := by
  induction xs with
  | nil => rfl
  | cons x xs ih =>
    rw [List.mapM_cons, List.mapM_cons, ih]
    cases f x with
    | error e => rfl
    | ok y => cases xs.mapM f <;> rfl

/-- Whatever the computation returns has the property. -/
def Returns (P : α → Prop) (x : Except ε α) : Prop := ∀ a, x = .ok a → P a

theorem Returns.pure {P : α → Prop} {a : α} (h : P a) : Returns P (pure a : Except ε α) := fun _ ha =>
  Except.ok.inj ha ▸ h

theorem Returns.throw {P : α → Prop} (e : ε) : Returns P (throw e : Except ε α) := fun _ h => nomatch h

theorem Returns.bind {P : β → Prop} {x : Except ε α} {f : α → Except ε β} (h : ∀ a, Returns P (f a)) :
    Returns P (x >>= f) := fun b hb =>
  have ⟨a, _, ha⟩ := bind_eq_ok.mp hb
  h a b ha

theorem Returns.mapM {P : β → Prop} {f : α → Except ε β} (h : ∀ a, Returns P (f a)) (xs : List α) :
    Returns (fun ys => ys.length = xs.length ∧ ∀ y ∈ ys, P y) (xs.mapM f) := by
  induction xs with
  | nil => exact .pure ⟨rfl, by simp⟩
  | cons x xs ih =>
    intro zs hzs
    rw [List.mapM_cons] at hzs
    rcases bind_eq_ok.mp hzs with ⟨y, hy, hzs⟩
    rcases bind_eq_ok.mp hzs with ⟨ys, hys, hzs⟩
    obtain rfl : y :: ys = zs := Except.ok.inj hzs
    rcases ih ys hys with ⟨hlength, hall⟩
    exact ⟨by simp [hlength], List.forall_mem_cons.mpr ⟨h x y hy, hall⟩⟩

end BundleAdjustment.Outcome
