import Mathlib
import BundleAdjustment.Collection.Basic
import BundleAdjustment.Proofs.Exact.Scalar

/-! # Views of a collection

The groups of a summary are the entries of each type, counted and weighed, in the order in which the types first occur.
The views by type share out the entries of the collection, and the view by image has those that refer to the image.
-/

namespace BundleAdjustment

section Lists

variable {β : Type}

/-- Two views that share no entry are together one view. -/
theorem filter_append_filter_perm {p q : β → Bool} (h : ∀ x, p x = true → q x = false) (l : List β) :
    (l.filter p ++ l.filter q).Perm (l.filter fun x => p x || q x) := by
  have hleft : (l.filter fun x => p x || q x).filter p = l.filter p := by
    rw [List.filter_filter]
    exact List.filter_congr fun x _ => by cases p x <;> simp
  have hright : (l.filter fun x => p x || q x).filter (fun x => !p x) = l.filter q := by
    rw [List.filter_filter]
    refine List.filter_congr fun x _ => ?_
    cases hp : p x with
    | false => simp
    | true => simp [h x hp]
  have hsplit := List.filter_append_perm p (l.filter fun x => p x || q x)
  rwa [hleft, hright] at hsplit

/-- The views by the values of a list share out the entries with such values. -/
theorem flatMap_filter_perm {κ : Type} [DecidableEq κ] (key : β → κ) {ks : List κ} (hnodup : ks.Nodup) (l : List β) :
    (ks.flatMap fun k => l.filter fun x => key x == k).Perm (l.filter fun x => ks.contains (key x)) := by
  induction ks with
  | nil => simp
  | cons k ks ih =>
    obtain ⟨hk, hks⟩ := List.nodup_cons.mp hnodup
    have hapart (x : β) (hx : (key x == k) = true) : ks.contains (key x) = false := by
      simpa [beq_iff_eq.mp hx] using hk
    have hunion : (fun x => key x == k || ks.contains (key x)) = fun x => (k :: ks).contains (key x) := by
      funext x
      rw [List.contains_cons]
    rw [List.flatMap_cons, ← hunion]
    exact ((ih hks).append_left _).trans (filter_append_filter_perm hapart l)

section Occurrences

variable {κ : Type} [DecidableEq κ]

theorem eraseDups_append_singleton (l : List κ) (x : κ) :
    (l ++ [x]).eraseDups = if x ∈ l then l.eraseDups else l.eraseDups ++ [x] := by
  rw [List.eraseDups_append]
  by_cases hx : x ∈ l
  · have hgone : [x].removeAll l = [] := by simp [List.removeAll, hx]
    rw [if_pos hx, hgone, List.eraseDups_nil, List.append_nil]
  · have hkept : [x].removeAll l = [x] := by simp [List.removeAll, hx]
    have hsingle : [x].eraseDups = [x] := rfl
    rw [if_neg hx, hkept, hsingle]

/-- Without repetitions, the values of a list stand in the order of their first positions. -/
theorem pairwise_eraseDups (l : List κ) : l.eraseDups.Pairwise fun a b => l.idxOf a < l.idxOf b := by
  induction l using List.reverseRecOn with
  | nil => exact .nil
  | append_singleton l x ih =>
    have hold : l.eraseDups.Pairwise fun a b => (l ++ [x]).idxOf a < (l ++ [x]).idxOf b := by
      refine ih.imp_of_mem fun {a b} ha hb hlt => ?_
      rwa [List.idxOf_append_of_mem (List.mem_eraseDups.mp ha), List.idxOf_append_of_mem (List.mem_eraseDups.mp hb)]
    rw [eraseDups_append_singleton]
    split_ifs with hx
    · exact hold
    · refine List.pairwise_append.mpr ⟨hold, List.pairwise_singleton _ _, fun a ha b hb => ?_⟩
      rw [List.mem_singleton.mp hb, List.idxOf_append_of_mem (List.mem_eraseDups.mp ha),
        List.idxOf_append_of_notMem hx]
      exact (List.idxOf_lt_length_of_mem (List.mem_eraseDups.mp ha)).trans_le (Nat.le_add_right ..)

theorem nodup_eraseDups (l : List κ) : l.eraseDups.Nodup :=
  (pairwise_eraseDups l).imp fun hlt heq => hlt.ne (congrArg l.idxOf heq)

end Occurrences

end Lists

section Groups

variable {α ρ : Type} [ExactScalar α]

def CostGroup.of (es : List (CostEntry α ρ)) (t : CostType) : CostGroup α where
  costType := t
  count := (es.filter fun e => e.costType == t).length
  totalWeight := ((es.filter fun e => e.costType == t).map (·.weight)).sum

namespace CostGroup

variable (es : List (CostEntry α ρ)) (e : CostEntry α ρ)

@[simp] theorem of_costType (t : CostType) : (of es t).costType = t := rfl

theorem of_append_self : of (es ++ [e]) e.costType
    = ⟨e.costType, (of es e.costType).count + 1, (of es e.costType).totalWeight + e.weight⟩ := by
  simp [of, List.filter_append]

theorem of_append_of_ne {t : CostType} (h : t ≠ e.costType) : of (es ++ [e]) t = of es t := by
  simp [of, List.filter_append, Ne.symm h]

theorem of_eq_of_notMem {t : CostType} (h : t ∉ es.map (·.costType)) : of es t = ⟨t, 0, 0⟩ := by
  have hnone : es.filter (fun e => e.costType == t) = [] := by
    refine List.filter_eq_nil_iff.mpr fun e he hte => h ?_
    exact List.mem_map.mpr ⟨e, he, beq_iff_eq.mp hte⟩
  simp [of, hnone]

end CostGroup

namespace CostCollection

variable (es : List (CostEntry α ρ)) (e : CostEntry α ρ) {ts : List CostType}

/-- An entry of a type that has a group is counted there. -/
theorem count_of_mem (hnodup : ts.Nodup) (he : e.costType ∈ ts) :
    count e (ts.map (CostGroup.of es)) = ts.map (CostGroup.of (es ++ [e])) := by
  -- Up to its own type the entry is passed on; behind it, no group counts it.
  induction ts with
  | nil => simp at he
  | cons t ts ih =>
    obtain ⟨ht, hts⟩ := List.nodup_cons.mp hnodup
    rw [List.map_cons, List.map_cons, count]
    by_cases heq : t = e.costType
    · subst heq
      have hrest : ts.map (CostGroup.of es) = ts.map (CostGroup.of (es ++ [e])) :=
        List.map_congr_left fun u hu =>
          (CostGroup.of_append_of_ne es e fun hue => ht (hue ▸ hu)).symm
      rw [if_pos (CostGroup.of_costType es _), CostGroup.of_append_self, hrest, CostGroup.of_costType]
    · have hmem : e.costType ∈ ts := (List.mem_cons.mp he).resolve_left (Ne.symm heq)
      rw [if_neg (by simpa using heq), ih hts hmem, CostGroup.of_append_of_ne es e heq]

/-- The first entry of a type gets a group of its own at the end. -/
theorem count_of_notMem (hnew : e.costType ∉ es.map (·.costType)) (he : e.costType ∉ ts) :
    count e (ts.map (CostGroup.of es)) = (ts ++ [e.costType]).map (CostGroup.of (es ++ [e])) := by
  induction ts with
  | nil =>
    have hzero : (0 : α) = @OfNat.ofNat α 0 (Scalar.instOfNatScalar 0) := by simp
    rw [List.map_nil, count, List.nil_append, List.map_singleton, CostGroup.of_append_self,
      CostGroup.of_eq_of_notMem es hnew, hzero]
  | cons t ts ih =>
    have hne : t ≠ e.costType := fun h => he (h ▸ List.mem_cons_self)
    rw [List.map_cons, count, if_neg (by simpa using hne), ih fun h => he (List.mem_cons_of_mem _ h),
      List.cons_append, List.map_cons, CostGroup.of_append_of_ne es e hne]

/-- The groups are those of the types in the order in which they first occur. -/
theorem groups_eq (c : CostCollection α ρ) :
    c.groups = (c.entries.map (·.costType)).eraseDups.map (CostGroup.of c.entries) := by
  obtain ⟨es⟩ := c
  change es.foldl (fun gs e => count e gs) [] = _
  -- From the end, as the groups of the entries so far meet one more entry.
  induction es using List.reverseRecOn with
  | nil => rfl
  | append_singleton es e ih =>
    rw [List.foldl_append, List.foldl_cons, List.foldl_nil, ih, List.map_append, List.map_singleton,
      eraseDups_append_singleton]
    split_ifs with he
    · exact count_of_mem es e (nodup_eraseDups _) (List.mem_eraseDups.mpr he)
    · exact count_of_notMem es e he fun h => he (List.mem_eraseDups.mp h)

/-- The views by the types of the groups share out the entries. -/
theorem flatMap_filterByType_perm (c : CostCollection α ρ) :
    (c.groups.flatMap fun g => c.filterByType g.costType).Perm c.entries := by
  have htypes : (c.groups.flatMap fun g => c.filterByType g.costType)
      = (c.entries.map (·.costType)).eraseDups.flatMap c.filterByType := by
    rw [groups_eq, List.flatMap_map]
    rfl
  have hall : (c.entries.filter fun e => (c.entries.map (·.costType)).eraseDups.contains e.costType) = c.entries := by
    refine List.filter_eq_self.mpr fun e he => List.contains_iff_mem.mpr ?_
    exact List.mem_eraseDups.mpr (List.mem_map_of_mem he)
  have hshared := flatMap_filter_perm (·.costType) (nodup_eraseDups (c.entries.map (·.costType))) c.entries
  rw [htypes]
  rwa [hall] at hshared

theorem totalWeight_eq_sum (c : CostCollection α ρ) : c.totalWeight = (c.entries.map (·.weight)).sum := by
  rw [totalWeight, List.sum_eq_foldl, List.foldl_map, ExactScalar.numeral_eq_cast, Nat.cast_zero]

theorem eq_of_mem_groups (c : CostCollection α ρ) {g : CostGroup α} (hg : g ∈ c.groups) :
    g = CostGroup.of c.entries g.costType := by
  rw [groups_eq] at hg
  obtain ⟨t, -, rfl⟩ := List.mem_map.mp hg
  rw [CostGroup.of_costType]

end CostCollection

end Groups

/-- Observations refer to their image, pose priors to one or two. -/
def Reference.RefersTo (image : Int) : Reference → Prop
  | .none => False
  | .observation i _ _ => i = image
  | .posePrior i other => i = image ∨ other = some image

instance (image : Int) : DecidablePred (Reference.RefersTo image)
  | .none => inferInstanceAs (Decidable False)
  | .observation i _ _ => inferInstanceAs (Decidable (i = image))
  | .posePrior i other => inferInstanceAs (Decidable (i = image ∨ other = some image))

section Images

variable {α ρ : Type}

theorem CostEntry.anchors_of_observes (e : CostEntry α ρ) (image : Option Int)
    (h : e.observes image = true) : e.anchors image = false := by
  unfold observes at h
  unfold anchors
  cases hr : e.reference with
  | none => rfl
  | observation i point camera => rfl
  | posePrior i other => simp [hr] at h

theorem CostEntry.observes_or_anchors_iff (e : CostEntry α ρ) (image : Int) :
    (e.observes (some image) || e.anchors (some image)) = true ↔ e.reference.RefersTo image := by
  unfold observes anchors
  cases e.reference <;> simp [Reference.RefersTo]

theorem CostCollection.filterByImage_perm (c : CostCollection α ρ) (image : Int) :
    (c.filterByImage (some image)).Perm (c.entries.filter fun e => e.reference.RefersTo image) := by
  have hunion := filter_append_filter_perm
    (fun e : CostEntry α ρ => e.anchors_of_observes (some image)) c.entries
  refine hunion.trans (.of_eq (List.filter_congr fun e _ => ?_))
  rw [Bool.eq_iff_iff, e.observes_or_anchors_iff, decide_eq_true_iff]

/-- A prior that names one image twice is seen once. -/
example :
    let e : CostEntry Unit Unit := ⟨.linear (), [], "", .relativePosePrior, (), [], .posePrior 3 (some 3)⟩
    (CostCollection.empty.add e).filterByImage (some 3) = [e] := rfl

end Images

inductive Addition (α ρ : Type) where
  | one (e : CostEntry α ρ)
  | many (es : List (CostEntry α ρ))

namespace Addition

variable {α ρ : Type}

def entries : Addition α ρ → List (CostEntry α ρ)
  | one e => [e]
  | many es => es

def apply (c : CostCollection α ρ) : Addition α ρ → CostCollection α ρ
  | one e => c.add e
  | many es => c.extend es

theorem apply_entries (c : CostCollection α ρ) (a : Addition α ρ) : (a.apply c).entries = c.entries ++ a.entries := by
  cases a <;> rfl

end Addition

namespace CostCollection

variable {α ρ : Type}

def built (additions : List (Addition α ρ)) : CostCollection α ρ :=
  additions.foldl (fun c a => a.apply c) empty

theorem foldl_apply_entries (additions : List (Addition α ρ)) (c : CostCollection α ρ) :
    (additions.foldl (fun c a => a.apply c) c).entries = c.entries ++ additions.flatMap (·.entries) := by
  induction additions generalizing c with
  | nil => simp
  | cons a additions ih =>
    rw [List.foldl_cons, ih, Addition.apply_entries, List.flatMap_cons, List.append_assoc]

/-- The views of a collection lose nothing of it and count nothing twice. -/
structure IsFaithful (c : CostCollection ℝ ρ) : Prop where
  /-- There is a group for each type that occurs. -/
  occurring (t : CostType) : t ∈ c.groups.map (·.costType) ↔ ∃ e ∈ c.entries, e.costType = t
  /-- The groups stand in the order in which their types first occur, so that no two are of one type. -/
  ordered : c.groups.Pairwise fun g h =>
    (c.entries.map (·.costType)).idxOf g.costType < (c.entries.map (·.costType)).idxOf h.costType
  count_eq : ∀ g ∈ c.groups, g.count = (c.filterByType g.costType).length
  totalWeight_eq : ∀ g ∈ c.groups, g.totalWeight = ((c.filterByType g.costType).map (·.weight)).sum
  averageWeight_eq : ∀ g ∈ c.groups, g.averageWeight
    = ((c.filterByType g.costType).map (·.weight)).sum / (c.filterByType g.costType).length
  sum_count : (c.groups.map (·.count)).sum = c.totalCosts
  sum_totalWeight : (c.groups.map (·.totalWeight)).sum = c.totalWeight
  /-- The views by type share out the entries, each in the order of the collection. -/
  shared : (c.groups.flatMap fun g => c.filterByType g.costType).Perm c.entries
  sublist (t : CostType) : (c.filterByType t).Sublist c.entries
  mem_byType (t : CostType) (e : CostEntry ℝ ρ) : e ∈ c.filterByType t ↔ e ∈ c.entries ∧ e.costType = t
  /-- The view by image has the entries that refer to it, each as often as the collection. -/
  byImage (image : Int) :
    (c.filterByImage (some image)).Perm (c.entries.filter fun e => e.reference.RefersTo image)

theorem isFaithful (c : CostCollection ℝ ρ) : c.IsFaithful where
  occurring t := by
    rw [groups_eq, List.map_map, ← List.mem_map, ← List.mem_eraseDups]
    simp [Function.comp_def]
  ordered := by
    rw [groups_eq]
    exact List.pairwise_map.mpr (pairwise_eraseDups _)
  count_eq g hg := congrArg (·.count) (c.eq_of_mem_groups hg)
  totalWeight_eq g hg := congrArg (·.totalWeight) (c.eq_of_mem_groups hg)
  averageWeight_eq g hg := by
    have hgroup := c.eq_of_mem_groups hg
    have hcount : g.count = (c.filterByType g.costType).length := congrArg (·.count) hgroup
    have htotal : g.totalWeight = ((c.filterByType g.costType).map (·.weight)).sum := congrArg (·.totalWeight) hgroup
    have hcast : (Scalar.ofNat g.count : ℝ) = g.count := ExactScalar.ofNat_eq_cast g.count
    rw [CostGroup.averageWeight, hcast, hcount, htotal]
  sum_count := by
    have hlength := c.flatMap_filterByType_perm.length_eq
    rw [List.length_flatMap] at hlength
    rw [totalCosts, ← hlength]
    exact congrArg List.sum (List.map_congr_left fun g hg => congrArg (·.count) (c.eq_of_mem_groups hg))
  sum_totalWeight := by
    have hsum := (c.flatMap_filterByType_perm.map (·.weight)).sum_eq
    rw [totalWeight_eq_sum, ← hsum, List.map_flatMap, List.flatMap_def, List.sum_flatten, List.map_map]
    exact congrArg List.sum (List.map_congr_left fun g hg => congrArg (·.totalWeight) (c.eq_of_mem_groups hg))
  shared := c.flatMap_filterByType_perm
  sublist t := List.filter_sublist
  mem_byType t e := by simp [filterByType]
  byImage := c.filterByImage_perm

/-- Whatever calls build a collection, it has what they added, in their order, and its views are faithful. -/
theorem built_faithful (additions : List (Addition ℝ ρ)) :
    (built additions).entries = additions.flatMap (·.entries) ∧ (built additions).IsFaithful :=
  ⟨foldl_apply_entries additions empty, isFaithful _⟩

end CostCollection

end BundleAdjustment
