import BundleAdjustment.Solver.Registry
import Mathlib.Algebra.BigOperators.Group.List.Basic
import Mathlib.Algebra.GroupWithZero.Nat
import Mathlib.Data.List.Dedup
import Mathlib.Data.Set.Function

/-! # What a registry holds

The arrays that were entered, each once, with its size, and held constant where it should be. Entering an array,
changing what is known of it and adding a residual block keep this.
-/

namespace BundleAdjustment

/-- A one-dimensional array of at least one double, side by side. -/
structure ParameterArray.IsVector (a : ParameterArray) : Prop where
  isDouble : a.isDouble = true
  isContiguous : a.isContiguous = true
  shape : ∃ n, 0 < n ∧ a.shape = [n]

namespace ParameterArray.IsVector

variable {a : ParameterArray}

theorem length (h : a.IsVector) : a.length = .ok a.size := by
  obtain ⟨n, -, hshape⟩ := h.shape
  simp [ParameterArray.length, ParameterArray.size, hshape, pure, Except.pure]

theorem size_pos (h : a.IsVector) : 0 < a.size := by
  obtain ⟨n, hn, hshape⟩ := h.shape
  simpa [ParameterArray.size, hshape] using hn

end ParameterArray.IsVector

/-- The manifold can be made, and the array be put on it. -/
structure Manifold.Suits (m : Manifold) (a : ParameterArray) : Prop where
  ambientSize : m.ambientSize = a.size
  sphere : ∀ size, m = .sphere size → 2 ≤ size

theorem Manifold.Suits.tangentSize_ne_zero {m : Manifold} {a : ParameterArray} (h : m.Suits a) (ha : 0 < a.size) :
    m.tangentSize ≠ 0 := by
  cases m with
  | euclidean size =>
    have hsize : size = a.size := h.ambientSize
    simp only [tangentSize]
    omega
  | quaternion => decide
  | sphere size =>
    have hsize : 2 ≤ size := h.sphere size rfl
    simp only [tangentSize]
    omega

namespace Registry

variable {caller : Set ParameterArray} {entered : List ParameterArray} {held held' : ParameterArray → Bool}
  {r r' : Registry} {a : ParameterArray} {b : SolverBlock}

theorem map_array_modify (r : Registry) (key : String) {f : SolverBlock → SolverBlock}
    (harray : ∀ b, (f b).array = b.array) : (r.modify key f).blocks.map (·.array) = r.blocks.map (·.array) := by
  simp only [Registry.modify, List.map_map]
  refine List.map_congr_left fun b _ => ?_
  simp only [Function.comp_apply, apply_ite SolverBlock.array, harray, ite_self]

theorem mem_blocks_modify {key : String} {f : SolverBlock → SolverBlock} :
    b ∈ (r.modify key f).blocks ↔
      (∃ b' ∈ r.blocks, b'.array.key = key ∧ f b' = b) ∨ b ∈ r.blocks ∧ b.array.key ≠ key := by
  simp only [Registry.modify, List.mem_map, beq_iff_eq]
  constructor
  · rintro ⟨b', hb', heq⟩
    split_ifs at heq with hkey
    · exact .inl ⟨b', hb', hkey, heq⟩
    · exact .inr ⟨heq ▸ hb', heq ▸ hkey⟩
  · rintro (⟨b', hb', hkey, heq⟩ | ⟨hb, hkey⟩)
    · exact ⟨b', hb', by rw [if_pos hkey, heq]⟩
    · exact ⟨b, hb, if_neg hkey⟩

@[simp]
theorem numResidualBlocks_enter (n : Nat) : (r.enter a n).numResidualBlocks = r.numResidualBlocks := by
  unfold enter
  cases r.block? a.key <;> rfl

@[simp]
theorem numResidualBlocks_modify (key : String) (f : SolverBlock → SolverBlock) :
    (r.modify key f).numResidualBlocks = r.numResidualBlocks := rfl

theorem numResidualBlocks_enterAll (as : List ParameterArray) :
    (as.foldl (fun r a => r.enter a a.size) r).numResidualBlocks = r.numResidualBlocks := by
  induction as generalizing r with
  | nil => rfl
  | cons a as ih => rw [List.foldl_cons, ih, numResidualBlocks_enter]

theorem eq_of_addResidualBlock {b : ResidualBlock} (hok : r.addResidualBlock b = .ok r') :
    let entered := b.arrays.foldl (fun r a => r.enter a a.size) r
    r' = { entered with residualBlocks := entered.residualBlocks ++ [b] } := by
  unfold addResidualBlock at hok
  split_ifs at hok
  · exact (Except.ok.inj hok).symm
  · cases hok
  · cases hok
  · cases hok

theorem numResidualBlocks_addResidualBlock {b : ResidualBlock} (hok : r.addResidualBlock b = .ok r') :
    r'.numResidualBlocks = r.numResidualBlocks + 1 := by
  rw [eq_of_addResidualBlock hok, ← numResidualBlocks_enterAll (r := r) b.arrays]
  exact List.length_append

/-- The registry has exactly the entered arrays among the caller's, which have keys of their own. No array is held
constant before it is entered. -/
structure Holds (caller : Set ParameterArray) (entered : List ParameterArray) (held : ParameterArray → Bool)
    (r : Registry) : Prop where
  apart : Set.InjOn ParameterArray.key caller
  within : ∀ a ∈ entered, a ∈ caller
  nodup : (r.blocks.map (·.array)).Nodup
  mem_iff : ∀ a, a ∈ r.blocks.map (·.array) ↔ a ∈ entered
  size_eq : ∀ b ∈ r.blocks, b.size = b.array.size
  movable : ∀ b ∈ r.blocks, b.tangentSize ≠ 0
  constant_eq : ∀ b ∈ r.blocks, b.constant = held b.array
  free : ∀ a, a ∉ entered → held a = false

theorem holds_empty (hapart : Set.InjOn ParameterArray.key caller) : Holds caller [] (fun _ => false) .empty where
  apart := hapart
  within _ ha := absurd ha List.not_mem_nil
  nodup := List.nodup_nil
  mem_iff _ := Iff.rfl
  size_eq _ hb := absurd hb List.not_mem_nil
  movable _ hb := absurd hb List.not_mem_nil
  constant_eq _ hb := absurd hb List.not_mem_nil
  free _ _ := rfl

namespace Holds

/-- Keys tell the caller's arrays apart, so the block of a key is the block of the array. -/
theorem block?_eq_some (h : Holds caller entered held r) (ha : a ∈ caller)
    (hb : r.block? a.key = some b) : b ∈ r.blocks ∧ b.array = a := by
  have hmem : b ∈ r.blocks := List.mem_of_find?_eq_some hb
  have hkey : b.array.key = a.key := by simpa using List.find?_some hb
  have hentered : b.array ∈ entered := (h.mem_iff _).mp (List.mem_map_of_mem hmem)
  exact ⟨hmem, h.apart (h.within _ hentered) ha hkey⟩

theorem exists_block (h : Holds caller entered held r) (ha : a ∈ entered) :
    ∃ b, r.block? a.key = some b ∧ b ∈ r.blocks ∧ b.array = a := by
  obtain ⟨b, hb, rfl⟩ := List.mem_map.mp ((h.mem_iff a).mpr ha)
  cases hfind : r.block? b.array.key with
  | none => exact absurd (List.find?_eq_none.mp hfind b hb) (by simp)
  | some b' => exact ⟨b', rfl, h.block?_eq_some (h.within _ ha) hfind⟩

theorem block?_eq_none (h : Holds caller entered held r) (ha : a ∈ caller) (hnew : a ∉ entered) :
    r.block? a.key = none := by
  cases hfind : r.block? a.key with
  | none => rfl
  | some b =>
    obtain ⟨hb, rfl⟩ := h.block?_eq_some ha hfind
    exact absurd ((h.mem_iff _).mp (List.mem_map_of_mem hb)) hnew

theorem enter (h : Holds caller entered held r) (ha : a ∈ caller) (hsize : 0 < a.size) :
    Holds caller (entered ++ [a]) held (r.enter a a.size) := by
  have hwithin : ∀ a' ∈ entered ++ [a], a' ∈ caller := by
    simpa [or_imp, forall_and, ha] using h.within
  have hfree : ∀ a', a' ∉ entered ++ [a] → held a' = false := fun a' ha' =>
    h.free a' fun hmem => ha' (List.mem_append_left _ hmem)
  by_cases hnew : a ∈ entered
  · obtain ⟨b, hb, -⟩ := h.exists_block hnew
    have hmem : ∀ a', a' ∈ entered ++ [a] ↔ a' ∈ entered := by
      intro a'
      simp only [List.mem_append, List.mem_singleton, or_iff_left_iff_imp]
      rintro rfl
      exact hnew
    simp only [Registry.enter, hb]
    exact { h with within := hwithin, free := hfree, mem_iff := fun a' => (h.mem_iff a').trans (hmem a').symm }
  · simp only [Registry.enter, h.block?_eq_none ha hnew]
    refine ⟨h.apart, hwithin, ?_, ?_, ?_, ?_, ?_, hfree⟩
    · have hlast : a ∉ r.blocks.map (·.array) := fun hmem => hnew ((h.mem_iff a).mp hmem)
      simpa using List.nodup_append.mpr ⟨h.nodup, List.nodup_singleton a, by
        rintro a' ha' _ hlast' rfl
        exact hlast (List.mem_singleton.mp hlast' ▸ ha')⟩
    · intro a'
      simp only [List.map_append, List.mem_append, h.mem_iff a', List.map_cons, List.map_nil]
    · simpa [or_imp, forall_and, SolverBlock.size, Manifold.ambientSize] using h.size_eq
    · simpa [or_imp, forall_and, SolverBlock.tangentSize, Manifold.tangentSize, hsize.ne'] using h.movable
    · simpa [or_imp, forall_and, h.free a hnew] using h.constant_eq

theorem enterAll (as : List ParameterArray) (has : ∀ a ∈ as, a ∈ caller) (hsize : ∀ a ∈ as, 0 < a.size)
    (h : Holds caller entered held r) :
    Holds caller (entered ++ as) held (as.foldl (fun r a => r.enter a a.size) r) := by
  induction as generalizing entered r with
  | nil => simpa using h
  | cons a as ih =>
    rw [List.foldl_cons, List.append_cons]
    exact ih (fun a' ha' => has a' (List.mem_cons_of_mem a ha')) (fun a' ha' => hsize a' (List.mem_cons_of_mem a ha'))
      (h.enter (has a List.mem_cons_self) (hsize a List.mem_cons_self))

/-- A change to the block of one array that keeps the array, its size and its freedom to move. -/
theorem modify {f : SolverBlock → SolverBlock} (h : Holds caller entered held r) (ha : a ∈ entered)
    (harray : ∀ b, (f b).array = b.array)
    (hblock : ∀ b ∈ r.blocks, b.array = a → (f b).size = a.size ∧ (f b).tangentSize ≠ 0 ∧ (f b).constant = held' a)
    (hother : ∀ a', a' ≠ a → held' a' = held a') : Holds caller entered held' (r.modify a.key f) := by
  have harrays := map_array_modify r a.key harray
  have hcases : ∀ b ∈ (r.modify a.key f).blocks,
      (∃ b' ∈ r.blocks, b'.array = a ∧ f b' = b) ∨ b ∈ r.blocks ∧ b.array ≠ a := by
    intro b hb
    rcases mem_blocks_modify.mp hb with ⟨b', hb', hkey, rfl⟩ | ⟨hb', hkey⟩
    · have hmem : b'.array ∈ entered := (h.mem_iff _).mp (List.mem_map_of_mem hb')
      exact .inl ⟨b', hb', h.apart (h.within _ hmem) (h.within _ ha) hkey, rfl⟩
    · exact .inr ⟨hb', fun heq => hkey (congrArg ParameterArray.key heq)⟩
  refine ⟨h.apart, h.within, harrays ▸ h.nodup, fun a' => harrays ▸ h.mem_iff a', ?_, ?_, ?_, ?_⟩
  · intro b hb
    rcases hcases b hb with ⟨b', hb', heq, rfl⟩ | ⟨hb', -⟩
    · rw [(hblock b' hb' heq).1, harray, heq]
    · exact h.size_eq b hb'
  · intro b hb
    rcases hcases b hb with ⟨b', hb', heq, rfl⟩ | ⟨hb', -⟩
    · exact (hblock b' hb' heq).2.1
    · exact h.movable b hb'
  · intro b hb
    rcases hcases b hb with ⟨b', hb', heq, rfl⟩ | ⟨hb', hne⟩
    · rw [(hblock b' hb' heq).2.2, harray, heq]
    · rw [h.constant_eq b hb', hother _ hne]
  · intro a' ha'
    have hne : a' ≠ a := fun heq => ha' (heq ▸ ha)
    rw [hother a' hne, h.free a' ha']

theorem setManifold {m : Manifold} (h : Holds caller entered held r) (ha : a ∈ entered) (hsize : 0 < a.size)
    (hm : m.Suits a) : Holds caller entered held (r.setManifold a.key m) := by
  refine h.modify ha (fun _ => rfl) (fun b hb heq => ?_) (fun _ _ => rfl)
  exact ⟨hm.ambientSize, hm.tangentSize_ne_zero hsize, (h.constant_eq b hb).trans (congrArg held heq)⟩

theorem setConstant {constant : Bool} (h : Holds caller entered held r) (ha : a ∈ entered)
    (hconstant : held' a = constant) (hother : ∀ a', a' ≠ a → held' a' = held a') :
    Holds caller entered held' (r.setConstant a.key constant) := by
  refine h.modify ha (fun _ => rfl) (fun b hb heq => ?_) hother
  exact ⟨(h.size_eq b hb).trans (congrArg ParameterArray.size heq), h.movable b hb, hconstant.symm⟩

/-- A residual block that is accepted enters its arrays. -/
theorem addResidualBlock {b : ResidualBlock} (h : Holds caller entered held r)
    (hwithin : ∀ a ∈ b.arrays, a ∈ caller) (hsize : ∀ a ∈ b.arrays, 0 < a.size)
    (hok : r.addResidualBlock b = .ok r') : Holds caller (entered ++ b.arrays) held r' := by
  obtain rfl := eq_of_addResidualBlock hok
  exact { h.enterAll b.arrays hwithin hsize with }

/-- The number of parameters counts every entered array once. -/
theorem numParameters (h : Holds caller entered held r) :
    r.numParameters = (entered.dedup.map ParameterArray.size).sum := by
  have hsizes : r.blocks.map (·.size) = (r.blocks.map (·.array)).map ParameterArray.size := by
    rw [List.map_map]
    exact List.map_congr_left h.size_eq
  have hperm : (r.blocks.map (·.array)).Perm entered.dedup :=
    (List.perm_ext_iff_of_nodup h.nodup (List.nodup_dedup entered)).mpr fun a => by rw [h.mem_iff, List.mem_dedup]
  calc r.numParameters
    _ = (r.blocks.map (·.size)).sum := rfl
    _ = ((r.blocks.map (·.array)).map ParameterArray.size).sum := by rw [hsizes]
    _ = (entered.dedup.map ParameterArray.size).sum := (hperm.map _).sum_eq

/-- An array stays as it is if and only if it is held: there is always a direction in which it could move. -/
theorem isFixed (h : Holds caller entered held r) (hb : b ∈ r.blocks) : b.isFixed = held b.array := by
  simp [SolverBlock.isFixed, h.constant_eq b hb, h.movable b hb]

end Holds

end Registry

end BundleAdjustment
