import Mathlib.Data.List.GetD
import BundleAdjustment.Jacobian
import BundleAdjustment.Proofs.Outcome

/-! # Jacobians by blocks

A formula that gives a result at all blocks of the given lengths has its Jacobians there. The Jacobian of one block
varies that block alone, so that blocks in front of it can be held fixed.
-/

namespace BundleAdjustment

open Outcome

variable {α : Type} [Scalar α]

theorem length_seed (blocks : List (Block α)) (block position : ℕ) :
    (seed blocks block position).map List.length = blocks.map List.length := by
  refine List.ext_getElem (by simp [seed]) fun i _ _ => ?_
  simp [seed]

theorem mapIdx_const (b : Block α) : b.mapIdx (fun _ x => Dual.const x) = b.map Dual.const :=
  List.ext_getElem (by simp) fun i _ _ => by simp

/-- All blocks but the one that moves are at rest. -/
theorem seed_eq_set {blocks : List (Block α)} {block : ℕ} (h : block < blocks.length) (position : ℕ) :
    seed blocks block position = (blocks.map (List.map Dual.const)).set block
      (blocks[block].mapIdx fun j x => if j = position then Dual.moving x else Dual.const x) := by
  refine List.ext_getElem (by simp [seed]) fun l hl _ => ?_
  by_cases hlb : block = l
  · subst hlb
    simp [seed]
  · simp [seed, hlb, Ne.symm hlb, mapIdx_const]

theorem seed_append (fixed free : List (Block α)) (block position : ℕ) :
    seed (fixed ++ free) (fixed.length + block) position =
      fixed.map (List.map Dual.const) ++ seed free block position := by
  simp only [seed, List.mapIdx_append, Nat.add_comm _ fixed.length, Nat.add_left_cancel_iff]
  congr 1
  refine List.ext_getElem (by simp) fun i hi _ => ?_
  have hne : i ≠ fixed.length + block := by
    rw [List.length_mapIdx] at hi
    omega
  simp [hne, mapIdx_const]

theorem seed_append_left (front back : List (Block α)) {block : ℕ} (h : block < front.length) (position : ℕ) :
    seed (front ++ back) block position = seed front block position ++ back.map (List.map Dual.const) := by
  simp only [seed, List.mapIdx_append]
  congr 1
  apply List.ext_getElem
  · simp
  · intro i _ _
    have hne : i + front.length ≠ block := by omega
    simp [hne, mapIdx_const]

def blockRows (F : List (Block (Dual α)) → List (Dual α)) (height : ℕ) (blocks : List (Block α)) (block : ℕ) :
    List (List α) :=
  rowsOfColumns height ((List.range (blocks.getD block []).length).map fun j =>
    (F (seed blocks block j)).map Dual.slope)

variable {f : List (Block (Dual α)) → Except Fault (List (Dual α))} {F G : List (Block (Dual α)) → List (Dual α)}
  {height : ℕ} {blocks fixed free : List (Block α)}

theorem blockRows_append (block : ℕ) : blockRows F height (fixed ++ free) (fixed.length + block) =
    blockRows (fun bs => F (fixed.map (List.map Dual.const) ++ bs)) height free block := by
  simp only [blockRows, seed_append, List.getD_append_right _ _ _ _ (Nat.le_add_right ..), Nat.add_sub_cancel_left]

/-- Two formulas that agree once their first blocks are held fixed have the same Jacobians of the other blocks. -/
theorem blockRows_append_congr (fixed fixed' : List (Block α))
    (h : ∀ bs, bs.map List.length = free.map List.length →
      F (fixed.map (List.map Dual.const) ++ bs) = G (fixed'.map (List.map Dual.const) ++ bs)) (block : ℕ) :
    blockRows F height (fixed ++ free) (fixed.length + block) =
      blockRows G height (fixed' ++ free) (fixed'.length + block) := by
  rw [blockRows_append, blockRows_append]
  simp only [blockRows, h _ (length_seed ..)]

/-- A block in front of those that are held fixed keeps its Jacobian. -/
theorem blockRows_insert_of_lt {front back : List (Block α)}
    (h : ∀ fs bs, fs.map List.length = front.map List.length → bs.map List.length = back.map List.length →
      G (fs ++ bs) = F (fs ++ fixed.map (List.map Dual.const) ++ bs)) {block : ℕ} (hblock : block < front.length) :
    blockRows G height (front ++ back) block = blockRows F height (front ++ fixed ++ back) block := by
  have hback : (back.map (List.map Dual.const)).map List.length = back.map List.length := by
    simp [Function.comp_def]
  have hseed (j : ℕ) : G (seed front block j ++ back.map (List.map Dual.const)) =
      F (seed front block j ++ (fixed.map (List.map Dual.const) ++ back.map (List.map Dual.const))) := by
    rw [h _ _ (length_seed ..) hback, List.append_assoc]
  simp only [blockRows, List.append_assoc, seed_append_left _ _ hblock, List.getD_append _ _ _ _ hblock, hseed,
    List.map_append]

/-- A block behind those that are held fixed keeps its Jacobian. -/
theorem blockRows_insert_of_le {front back : List (Block α)}
    (h : ∀ fs bs, fs.map List.length = front.map List.length → bs.map List.length = back.map List.length →
      G (fs ++ bs) = F (fs ++ fixed.map (List.map Dual.const) ++ bs)) (block : ℕ) :
    blockRows G height (front ++ back) (front.length + block) =
      blockRows F height (front ++ fixed ++ back) (front.length + fixed.length + block) := by
  have hfront : (front.map (List.map Dual.const)).map List.length = front.map List.length := by
    simp [Function.comp_def]
  rw [← List.length_append]
  apply blockRows_append_congr front (front ++ fixed)
  intro bs hbs
  rw [List.map_append]
  exact h _ bs hfront hbs

/-- A formula that gives a result at all blocks of the given lengths has all Jacobians. -/
theorem jacobians_eq_ok (h : ∀ bs, bs.map List.length = blocks.map List.length → f bs = .ok (F bs)) :
    jacobians f height blocks = .ok ((List.range blocks.length).map (blockRows F height blocks)) := by
  refine mapM_eq_ok fun block _ => ?_
  have hcolumns : (List.range (blocks.getD block []).length).mapM
      (fun j => do return (← f (seed blocks block j)).map Dual.slope) =
      .ok ((List.range (blocks.getD block []).length).map fun j => (F (seed blocks block j)).map Dual.slope) :=
    mapM_eq_ok fun j _ => by rw [h _ (length_seed ..)]; rfl
  rw [blockJacobian, hcolumns]
  rfl

end BundleAdjustment
