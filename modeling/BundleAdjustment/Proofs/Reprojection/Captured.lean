import BundleAdjustment.Proofs.Cost.Evaluation

/-! # Captured blocks

A reprojection cost that holds a pose or a point fixed is the cost that varies it, evaluated with the constants in the
places of the blocks that they replace. It has the same residual, and the same Jacobians of the blocks that are left.
-/

namespace BundleAdjustment

section Lists

variable {δ : Type}

def insertAfter (start : ℕ) (entries l : List δ) : List δ := l.take start ++ entries ++ l.drop start

def removeAfter (start count : ℕ) (l : List δ) : List δ := l.take start ++ l.drop (start + count)

theorem insertAfter_append (front entries back : List δ) :
    insertAfter front.length entries (front ++ back) = front ++ entries ++ back := by
  simp [insertAfter]

theorem removeAfter_append (front entries back : List δ) :
    removeAfter front.length entries.length (front ++ entries ++ back) = front ++ back := by
  simp [removeAfter]

theorem removeAfter_insertAfter (entries : List δ) {start : ℕ} {l : List δ} (h : start ≤ l.length) :
    removeAfter start entries.length (insertAfter start entries l) = l := by
  have hremove := removeAfter_append (l.take start) entries (l.drop start)
  rwa [List.length_take_of_le h, List.take_append_drop] at hremove

theorem map_insertAfter {ε : Type} (g : δ → ε) (start : ℕ) (entries l : List δ) :
    (insertAfter start entries l).map g = insertAfter start (entries.map g) (l.map g) := by
  simp [insertAfter, List.map_take, List.map_drop]

end Lists

variable {α : Type} [Scalar α]

/-- Formulas that agree once some blocks are held fixed have the same Jacobians of the blocks that are left. -/
theorem removeAfter_blockRows {F G : List (Block (Dual α)) → List (Dual α)} {front fixed back : List (Block α)}
    (height : ℕ)
    (h : ∀ fs bs, fs.map List.length = front.map List.length → bs.map List.length = back.map List.length →
      G (fs ++ bs) = F (fs ++ fixed.map (List.map Dual.const) ++ bs)) :
    removeAfter front.length fixed.length ((List.range (front ++ fixed ++ back).length).map
      (blockRows F height (front ++ fixed ++ back))) =
      (List.range (front ++ back).length).map (blockRows G height (front ++ back)) := by
  let rows := blockRows F height (front ++ fixed ++ back)
  have hrange : (List.range (front ++ fixed ++ back).length).map rows = (List.range front.length).map rows ++
      (List.range fixed.length).map (fun k => rows (front.length + k)) ++
        (List.range back.length).map fun k => rows (front.length + fixed.length + k) := by
    simp [List.range_add, Nat.add_assoc, Function.comp_def]
  have hremove := removeAfter_append ((List.range front.length).map rows)
    ((List.range fixed.length).map fun k => rows (front.length + k))
    ((List.range back.length).map fun k => rows (front.length + fixed.length + k))
  simp only [List.length_map, List.length_range] at hremove
  rw [hrange, hremove, List.length_append, List.range_add, List.map_append, List.map_map]
  congr 1
  · exact List.map_congr_left fun k hk => (blockRows_insert_of_lt h (List.mem_range.mp hk)).symm
  · exact List.map_congr_left fun k _ => (blockRows_insert_of_le h k).symm

namespace Measurement

/-- A measurement is another one with some of its blocks held fixed. The blocks that are left and their Jacobians are
in the order of the other. -/
structure Captures (m' m : Measurement α) (start : ℕ) (fixed : List (Block α)) : Prop where
  numResiduals : m'.numResiduals = m.numResiduals
  blockSizes : m'.blockSizes = removeAfter start fixed.length m.blockSizes
  evaluates {free : List (Block α)} (h : Block.HaveSizes free m'.blockSizes) :
    Block.HaveSizes (insertAfter start fixed free) m.blockSizes ∧
      ∃ r Js, m.Evaluates (insertAfter start fixed free) r Js ∧
        m'.Evaluates free r (removeAfter start fixed.length Js)

theorem captures_of_formula {m' m : Measurement α} {start : ℕ} {fixed : List (Block α)}
    (hstart : start ≤ m'.blockSizes.length) (hnum : m'.numResiduals = m.numResiduals)
    (hsizes : m.blockSizes = insertAfter start (fixed.map List.length) m'.blockSizes)
    (hformula : ∀ free, Block.HaveSizes free m'.blockSizes →
      m'.formula free = m.formula (insertAfter start fixed free))
    (hdual : ∀ free, Block.HaveSizes free m'.blockSizes → (m'.map Dual.const).formula free =
      (m.map Dual.const).formula (insertAfter start (fixed.map (List.map Dual.const)) free)) :
    m'.Captures m start fixed where
  numResiduals := hnum
  blockSizes := by
    have hremove := removeAfter_insertAfter (fixed.map List.length) hstart
    rw [hsizes, ← List.length_map List.length, hremove]
  evaluates {free} h := by
    have hfull : Block.HaveSizes (insertAfter start fixed free) m.blockSizes := by
      rw [Block.haveSizes_iff, map_insertAfter, Block.haveSizes_iff.mp h, hsizes]
    have hfront : (free.take start).length = start := List.length_take_of_le (h.length_eq ▸ hstart)
    have hsplit (fs bs : List (Block (Dual α))) (hfs : fs.map List.length = (free.take start).map List.length)
        (hbs : bs.map List.length = (free.drop start).map List.length) : (m'.map Dual.const).formula (fs ++ bs) =
          (m.map Dual.const).formula (fs ++ fixed.map (List.map Dual.const) ++ bs) := by
      have hsizes : Block.HaveSizes (fs ++ bs) m'.blockSizes := by
        rw [Block.haveSizes_iff, List.map_append, hfs, hbs, ← List.map_append, List.take_append_drop]
        exact Block.haveSizes_iff.mp h
      have hlength : fs.length = start := by
        rw [← List.length_map List.length, hfs, List.length_map, hfront]
      have hinsert := insertAfter_append fs (fixed.map (List.map Dual.const)) bs
      rw [hdual _ hsizes, ← hinsert, hlength]
    have hrows := removeAfter_blockRows m.numResiduals hsplit
    rw [hfront, List.take_append_drop] at hrows
    have heval := m'.evaluates_formula h
    rw [hformula free h, hnum, ← hrows] at heval
    exact ⟨hfull, _, _, m.evaluates_formula hfull, heval⟩

section Variants

variable (camera : CameraModel) (observed : Vec2 α)

theorem formula_fixedPose_insertAfter (T : Rigid α) {free : List (Block α)}
    (h : Block.HaveSizes free (fixedPoseReprojection camera T observed).blockSizes) :
    (fixedPoseReprojection camera T observed).formula free =
      (reprojection camera observed).formula (insertAfter 0 T.blocks free) :=
  match free, h with
  | [_, _], _ => rfl

theorem formula_fixedPoint_insertAfter (X : Vec3 α) {free : List (Block α)}
    (h : Block.HaveSizes free (fixedPointReprojection camera observed X).blockSizes) :
    (fixedPointReprojection camera observed X).formula free =
      (reprojection camera observed).formula (insertAfter 2 [X.toList] free) :=
  match free, h with
  | [_, _, _], _ => rfl

theorem formula_fixedRig_insertAfter (C : Rigid α) {free : List (Block α)}
    (h : Block.HaveSizes free (fixedRigReprojection camera C observed).blockSizes) :
    (fixedRigReprojection camera C observed).formula free =
      (rigReprojection camera observed).formula (insertAfter 0 C.blocks free) :=
  match free, h with
  | [_, _, _, _], _ => rfl

/-- Holding the pose, the point or the pose of a camera in its rig fixed captures these blocks and changes nothing else,
whether or not the rotations have unit length. -/
theorem captures_constants (T C : Rigid α) (X : Vec3 α) :
    (fixedPoseReprojection camera T observed).Captures (reprojection camera observed) 0 T.blocks ∧
      (fixedPointReprojection camera observed X).Captures (reprojection camera observed) 2 [X.toList] ∧
      (fixedRigReprojection camera C observed).Captures (rigReprojection camera observed) 0 C.blocks := by
  have hpose : (fixedPoseReprojection camera T observed).Captures (reprojection camera observed) 0 T.blocks :=
    captures_of_formula (Nat.zero_le _) rfl rfl
      (fun _ h => formula_fixedPose_insertAfter camera observed T h)
      (fun _ h => formula_fixedPose_insertAfter camera (observed.map Dual.const) (T.map Dual.const) h)
  have hpoint : (fixedPointReprojection camera observed X).Captures (reprojection camera observed) 2 [X.toList] :=
    captures_of_formula (Nat.le_add_left 2 1) rfl rfl
      (fun _ h => formula_fixedPoint_insertAfter camera observed X h)
      (fun _ h => formula_fixedPoint_insertAfter camera (observed.map Dual.const) (X.map Dual.const) h)
  have hrig : (fixedRigReprojection camera C observed).Captures (rigReprojection camera observed) 0 C.blocks :=
    captures_of_formula (Nat.zero_le _) rfl rfl
      (fun _ h => formula_fixedRig_insertAfter camera observed C h)
      (fun _ h => formula_fixedRig_insertAfter camera (observed.map Dual.const) (C.map Dual.const) h)
  exact ⟨hpose, hpoint, hrig⟩

end Variants

end Measurement

end BundleAdjustment
