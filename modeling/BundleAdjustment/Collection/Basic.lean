import BundleAdjustment.Collection.Entry
import BundleAdjustment.Log

/-! # Cost collections

Entries in the order in which they were added, with views by type and by image and a summary by type.
-/

namespace BundleAdjustment

structure CostCollection (α ρ : Type) where
  entries : List (CostEntry α ρ)

structure CostGroup (α : Type) where
  costType : CostType
  count : Nat
  totalWeight : α

namespace CostCollection

variable {α ρ : Type}

def empty : CostCollection α ρ := ⟨[]⟩

def add (c : CostCollection α ρ) (e : CostEntry α ρ) : CostCollection α ρ := ⟨c.entries ++ [e]⟩

def extend (c : CostCollection α ρ) (es : List (CostEntry α ρ)) : CostCollection α ρ := ⟨c.entries ++ es⟩

def filterByType (c : CostCollection α ρ) (t : CostType) : List (CostEntry α ρ) :=
  c.entries.filter fun e => e.costType == t

/-- The entries that refer to an image: first the observations, then the pose priors. -/
def filterByImage (c : CostCollection α ρ) (image : Option Int) : List (CostEntry α ρ) :=
  c.entries.filter (·.observes image) ++ c.entries.filter (·.anchors image)

def totalCosts (c : CostCollection α ρ) : Nat := c.entries.length

section

variable [Scalar α]

def totalWeight (c : CostCollection α ρ) : α := c.entries.foldl (fun total e => total + e.weight) 0

/-- Counts an entry in the group of its type, which is new at the end if there is none yet. -/
def count (e : CostEntry α ρ) : List (CostGroup α) → List (CostGroup α)
  | [] => [⟨e.costType, 1, 0 + e.weight⟩]
  | g :: rest =>
    if g.costType = e.costType then ⟨g.costType, g.count + 1, g.totalWeight + e.weight⟩ :: rest
    else g :: count e rest

/-- The groups, in the order in which their types first occur. -/
def groups (c : CostCollection α ρ) : List (CostGroup α) := c.entries.foldl (fun gs e => count e gs) []

end

end CostCollection

def CostGroup.averageWeight {α : Type} [Scalar α] (g : CostGroup α) : α := g.totalWeight / Scalar.ofNat g.count

namespace CostCollection

variable {ρ : Type}

/-- The text filled up to a width with blanks, on the right or on the left. -/
def padRight (width : Nat) (s : String) : String := s ++ String.ofList (List.replicate (width - s.length) ' ')

def padLeft (width : Nat) (s : String) : String := String.ofList (List.replicate (width - s.length) ' ') ++ s

def summaryLog (text : String) : Log := ⟨.info, .collection, text⟩

def groupText (g : CostGroup Float) : String :=
  "  " ++ padRight 20 g.costType.name ++ ": " ++ padLeft 4 (toString g.count) ++ " costs, weight="
    ++ padLeft 8 (Decimal.fixed 1 g.totalWeight) ++ " (avg=" ++ Decimal.fixed 2 g.averageWeight ++ ")"

/-- Records the summary: the totals, then a line for each group. -/
def logSummary (c : CostCollection Float ρ) : Logged Unit := do
  Logged.record (summaryLog (s!"Cost summary: {c.totalCosts} costs, weight=" ++ Decimal.fixed 1 c.totalWeight))
  c.groups.forM fun g => Logged.record (summaryLog (groupText g))

end CostCollection

end BundleAdjustment
