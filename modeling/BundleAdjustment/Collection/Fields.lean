import BundleAdjustment.Collection.Entry
import BundleAdjustment.Field

/-! # Reading entries

Entries from named fields. Description and metadata of observations and pose priors are composed from the other fields
when they are not given, before any field is checked.
-/

namespace BundleAdjustment

/-- A field that holds an object rather than a datum: it may be missing, or hold something else. -/
inductive Given (β : Type) where
  | missing
  | other
  | value (b : β)

namespace EntryKind

/-- The value of a field from which another one is composed. -/
def need (d : Datum) (name : String) : Except Fault Datum := (d.field? name).elim (throw .notFound) pure

/-- The description that is composed when none is given. -/
def composeDescription (kind : EntryKind) (d : Datum) : Except Fault Datum := do
  match kind with
  | .general => throw .notFound
  | .observation =>
    let camera ← need d "camera_model_name"
    let image ← need d "image_id"
    let point ← need d "point3D_id"
    return .text ("Reproj[" ++ camera.plain ++ "]: image " ++ image.plain ++ " -> point " ++ point.plain)
  | .posePrior =>
    let costType := ((d.field? "cost_type").getD (.text CostType.absolutePosePrior.name)).plain
    let image ← need d "image_id"
    match d.field? "other_image_id" with
    | none | some .null => return .text (costType ++ ": image " ++ image.plain)
    | some other => return .text (costType ++ ": image " ++ image.plain ++ " <-> " ++ other.plain)

/-- The metadata that are composed when none are given. -/
def composeMetadata (d : Datum) : Except Fault Datum := do
  let image ← need d "image_id"
  return .record [("image_id", image), ("point3D_id", ← need d "point3D_id")]

/-- The fields with those that are composed. -/
def complete (kind : EntryKind) (d : Datum) : Except Fault Datum := do
  match kind, d with
  | .general, d => return d
  | .observation, .record fields =>
    let fields ← match d.field? "description" with
      | none => pure (fields ++ [("description", ← composeDescription kind d)])
      | some _ => pure fields
    match d.field? "metadata" with
    | none => return .record (fields ++ [("metadata", ← composeMetadata d)])
    | some _ => return .record fields
  | .posePrior, .record fields =>
    match d.field? "description" with
    | none => return .record (fields ++ [("description", ← composeDescription kind d)])
    | some _ => return d
  | _, d => return d

/-- The cost types of each kind; the first is the default where there is one. -/
def costTypes : EntryKind → List CostType
  | general => CostType.all
  | observation => [.reprojection, .rigReprojection]
  | posePrior => [.absolutePosePrior, .positionPrior, .relativePosePrior]

end EntryKind

namespace CostEntry

variable {ρ : Type}

def readCost : Given (Cost Float) → Validated (Cost Float)
  | .missing => ⟨throw (.invalid [⟨["cost"], .missing⟩])⟩
  | .other => ⟨throw (.invalid [⟨["cost"], .notInstance⟩])⟩
  | .value c => pure c

/-- Every entry of the list must be an array. -/
def readParameters : Given (List (Option ρ)) → Validated (List ρ)
  | .missing => ⟨throw (.invalid [⟨["parameters"], .missing⟩])⟩
  | .other => ⟨throw (.invalid [⟨["parameters"], .notList⟩])⟩
  | .value ps =>
    let issues := ps.zipIdx.filterMap fun (p, i) =>
      if p.isNone then some ⟨["parameters", toString i], .notInstance⟩ else none
    if issues.isEmpty then pure (ps.filterMap id) else ⟨throw (.invalid issues)⟩

def readCostType (kind : EntryKind) (d : Datum) : Validated CostType :=
  let read (d : Datum) : Except Fault CostType := do
    let name ← Field.word (kind.costTypes.map CostType.name) d
    (CostType.ofName? name).elim (throw (.ofField .notAmong)) pure
  match kind with
  | .general => Field.required d "cost_type" read
  | .observation => Field.withDefault d "cost_type" .reprojection read
  | .posePrior => Field.withDefault d "cost_type" .absolutePosePrior read

def readReference (kind : EntryKind) (d : Datum) : Validated Reference :=
  match kind with
  | .general => pure .none
  | .observation => .observation
    <$> Field.required d "image_id" Field.int
    <*> Field.required d "point3D_id" Field.int
    <*> Field.required d "camera_model_name" Field.text
  | .posePrior => .posePrior
    <$> Field.required d "image_id" Field.int
    <*> Field.withDefault d "other_image_id" none (Field.nullable Field.int)

/-- An entry has as many parameters as its cost has blocks. -/
def checkCount (e : CostEntry Float ρ) : Except Fault (CostEntry Float ρ) :=
  let expected := e.cost.blockSizes.length
  if e.parameters.length = expected then pure e
  else
    let reason := Fault.message? (.entryBlockCount e.description expected e.parameters.length)
    throw (.invalid [⟨[], .refused reason⟩])

def ofFields (kind : EntryKind) (cost : Given (Cost Float)) (parameters : Given (List (Option ρ))) (d : Datum) :
    Except Fault (CostEntry Float ρ) := do
  let d ← kind.complete d
  let fields := CostEntry.mk
    <$> readCost cost
    <*> readParameters parameters
    <*> Field.required d "description" Field.text
    <*> readCostType kind d
    <*> Field.withDefault d "weight" 1 Field.float
    <*> Field.withDefault d "metadata" [] Field.record
    <*> readReference kind d
  checkCount (← fields.outcome)

/-- Reads an entry from plain data, which hold neither costs nor arrays. -/
def ofDatum (kind : EntryKind) (d : Datum) : Except Fault (CostEntry Float ρ) :=
  match d with
  | .record _ =>
    let cost := match d.field? "cost" with
      | none => .missing
      | some _ => .other
    let parameters := match d.field? "parameters" with
      | none => .missing
      | some (.list items) => .value (items.map fun _ => none)
      | some _ => .other
    ofFields kind cost parameters d
  | _ => throw (.invalid [⟨[], .notModel⟩])

end CostEntry

end BundleAdjustment
