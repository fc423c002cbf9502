import BundleAdjustment.Cost.Basic
import BundleAdjustment.Decimal.Rounded

/-! # Cost entries

A cost together with the parameters that it is to be applied to, and a description for people. Entries for image
observations and for pose priors also say which images they refer to.
-/

namespace BundleAdjustment

inductive CostType where
  | reprojection
  | rigReprojection
  | absolutePosePrior
  | positionPrior
  | relativePosePrior
  | pointAlignment
  | sampson
  deriving DecidableEq

namespace CostType

def all : List CostType :=
  [reprojection, rigReprojection, absolutePosePrior, positionPrior, relativePosePrior, pointAlignment, sampson]

def name : CostType → String
  | reprojection => "reprojection"
  | rigReprojection => "rig_reprojection"
  | absolutePosePrior => "absolute_pose_prior"
  | positionPrior => "position_prior"
  | relativePosePrior => "relative_pose_prior"
  | pointAlignment => "point_alignment"
  | sampson => "sampson"

def ofName? (name : String) : Option CostType := all.find? fun t => t.name == name

end CostType

inductive Reference where
  | none
  | observation (image point : Int) (cameraModel : String)
  | posePrior (image : Int) (otherImage : Option Int)

/-- An entry over scalars `α`, with parameters of type `ρ`. -/
structure CostEntry (α ρ : Type) where
  cost : Cost α
  parameters : List ρ
  description : String
  costType : CostType
  weight : α
  metadata : List (String × Datum)
  reference : Reference

inductive EntryKind where
  | general
  | observation
  | posePrior
  deriving DecidableEq

namespace EntryKind

def name : EntryKind → String
  | general => "CostInfo"
  | observation => "ReprojectionCostInfo"
  | posePrior => "PosePriorCostInfo"

/-- Every entry is also a general one. -/
def includes (k other : EntryKind) : Bool := k == general || k == other

end EntryKind

namespace CostEntry

variable {α ρ : Type}

def kind (e : CostEntry α ρ) : EntryKind :=
  match e.reference with
  | .none => .general
  | .observation .. => .observation
  | .posePrior .. => .posePrior

def observes (e : CostEntry α ρ) (image : Option Int) : Bool :=
  match e.reference with
  | .observation i _ _ => some i == image
  | _ => false

/-- Whether a pose prior names the image. A prior without second image names, as it were, no image as its second. -/
def anchors (e : CostEntry α ρ) (image : Option Int) : Bool :=
  match e.reference with
  | .posePrior i other => some i == image || other == image
  | _ => false

def title (e : CostEntry α ρ) : String := s!"CostInfo[{e.costType.name}]: {e.description}"

def details (e : CostEntry Float ρ) : String :=
  "CostInfo(type=" ++ e.costType.name ++ ", weight=" ++ Decimal.fixed 2 e.weight
    ++ s!", params={e.parameters.length}, desc='{e.description}')"

end CostEntry

end BundleAdjustment
