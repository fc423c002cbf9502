import Mathlib.Data.List.Basic
import BundleAdjustment.Collection.Fields

/-! # What a failed reading of an entry says

The fields of an entry are read side by side, and a failure names every required field that is missing. Composing a
description or metadata comes before that: it stops at the first field that it does not find.
-/

namespace BundleAdjustment

variable {α β ρ : Type}

/-- The names in `M` are exactly those of the missing fields: a result has none of them, a refusal has an issue for
each, and there is no other fault. -/
def NamesMissing (M : String → Prop) : Except Fault α → Prop
  | .ok _ => ∀ name, ¬M name
  | .error (.invalid issues) => ∀ name, ⟨[name], .missing⟩ ∈ issues ↔ M name
  | .error _ => False

namespace NamesMissing

variable {M N : String → Prop}

theorem congr {x : Except Fault α} (h : NamesMissing M x) (hMN : ∀ name, M name ↔ N name) : NamesMissing N x := by
  obtain rfl : M = N := funext fun name => propext (hMN name)
  exact h

theorem ok (a : α) : NamesMissing (fun _ => False) (.ok a : Except Fault α) := fun _ => id

theorem map {x : Except Fault α} (f : α → β) (h : NamesMissing M x) : NamesMissing M (x.map f) := by
  cases x with
  | ok a => exact h
  | error fault => cases fault <;> exact h

/-- A check of the result that finds no field missing. -/
theorem bind {x : Except Fault α} {f : α → Except Fault β} (h : NamesMissing M x)
    (hf : ∀ a, NamesMissing (fun _ => False) (f a)) : NamesMissing M (x >>= f) := by
  cases x with
  | ok a => exact (hf a).congr fun name => (iff_false_intro (h name)).symm
  | error fault => cases fault <;> exact h

theorem mapFields {x : Validated α} (f : α → β) (h : NamesMissing M x.outcome) : NamesMissing M (f <$> x).outcome :=
  h.map f

/-- Fields that are read side by side name what either misses. -/
theorem seq {f : Validated (α → β)} {x : Validated α} (hf : NamesMissing M f.outcome) (hx : NamesMissing N x.outcome) :
    NamesMissing (fun name => M name ∨ N name) (f <*> x).outcome := by
  obtain ⟨f⟩ := f
  obtain ⟨x⟩ := x
  change NamesMissing _ (Validated.seq ⟨f⟩ fun _ => ⟨x⟩).outcome
  cases f with
  | ok f =>
    exact (hx.map f).congr fun name => (or_iff_right (hf name)).symm
  | error fault =>
    cases fault with
    | invalid before =>
      cases x with
      | ok a =>
        exact fun name => (hf name).trans (or_iff_left (hx name)).symm
      | error fault =>
        cases fault with
        | invalid after => exact fun name => List.mem_append.trans (or_congr (hf name) (hx name))
        | _ => exact hx.elim
    | _ => exact hf.elim

end NamesMissing

/-- A value, or a refusal of the one that was given. -/
def IsReading : Except Fault α → Prop
  | .ok _ => True
  | .error fault => ∃ f, f ≠ .missing ∧ fault = .ofField f

namespace IsReading

theorem ok (a : α) : IsReading (.ok a : Except Fault α) := trivial

theorem refused {f : FieldFault} (hf : f ≠ .missing) : IsReading (.error (.ofField f) : Except Fault α) := ⟨f, hf, rfl⟩

theorem bind {x : Except Fault α} {f : α → Except Fault β} (h : IsReading x) (hf : ∀ a, IsReading (f a)) :
    IsReading (x >>= f) := by
  cases x with
  | ok a => exact hf a
  | error fault => exact h

theorem int (d : Datum) : IsReading (Field.int d) := by
  unfold Field.int
  split
  · exact ok _
  · exact ok _
  · split
    · exact refused (by simp)
    · split
      · split
        · exact ok _
        · exact refused (by simp)
      · exact refused (by simp)
  · split
    · exact ok _
    · exact refused (by simp)
    · exact refused (by simp)
  · exact refused (by simp)

theorem float (d : Datum) : IsReading (Field.float d) := by
  unfold Field.float
  split
  · exact ok _
  · dsimp only
    split
    · exact ok _
    · exact refused (by simp)
  · exact ok _
  · split
    · exact ok _
    · exact refused (by simp)
  · exact refused (by simp)

theorem text (d : Datum) : IsReading (Field.text d) := by
  cases d with
  | text s => exact ok s
  | _ => exact refused (by simp)

theorem record (d : Datum) : IsReading (Field.record d) := by
  cases d with
  | record fields => exact ok fields
  | _ => exact refused (by simp)

theorem word (allowed : List String) (d : Datum) : IsReading (Field.word allowed d) := by
  unfold Field.word
  split
  · split
    · exact ok _
    · exact refused (by simp)
  · exact refused (by simp)

theorem nullable {read : Datum → Except Fault α} (h : ∀ d, IsReading (read d)) (d : Datum) :
    IsReading (Field.nullable read d) := by
  unfold Field.nullable
  split
  · exact ok _
  · exact (h _).bind fun a => ok (some a)

end IsReading

namespace NamesMissing

theorem inField {x : Except Fault α} (name : String) (h : IsReading x) :
    NamesMissing (fun _ => False) (x.mapError (Fault.inField name)) := by
  cases x with
  | ok a => exact ok a
  | error fault =>
    obtain ⟨f, hf, rfl⟩ := h
    intro other
    simp [Ne.symm hf]

variable (d : Datum) (name : String) {read : Datum → Except Fault α}

theorem required (h : ∀ v, IsReading (read v)) :
    NamesMissing (fun other => other = name ∧ d.field? name = none) (Field.required d name read).outcome := by
  unfold Field.required
  cases hv : d.field? name with
  | some v => exact (inField name (h v)).congr fun other => by simp
  | none =>
    intro other
    simp

theorem withDefault (default : α) (h : ∀ v, IsReading (read v)) :
    NamesMissing (fun _ => False) (Field.withDefault d name default read).outcome := by
  unfold Field.withDefault
  cases d.field? name with
  | some v => exact inField name (h v)
  | none => exact ok default

end NamesMissing

/-- The fields that an entry of the kind has no default for, apart from the objects and from a description that is
composed. -/
def EntryKind.requiredFields : EntryKind → List String
  | general => ["description", "cost_type"]
  | observation => ["image_id", "point3D_id", "camera_model_name"]
  | posePrior => ["image_id"]

def CostEntry.IsMissing (kind : EntryKind) (cost : Given (Cost Float)) (parameters : Given (List (Option ρ)))
    (d : Datum) (name : String) : Prop :=
  name = "cost" ∧ cost = .missing ∨ name = "parameters" ∧ parameters = .missing
    ∨ name ∈ kind.requiredFields ∧ d.field? name = none

namespace NamesMissing

theorem readCost (cost : Given (Cost Float)) :
    NamesMissing (fun name => name = "cost" ∧ cost = .missing) (CostEntry.readCost cost).outcome := by
  cases cost with
  | missing => exact fun name => by simp
  | other => exact fun name => by simp
  | value c => exact fun name => by simp

theorem readParameters (parameters : Given (List (Option ρ))) :
    NamesMissing (fun name => name = "parameters" ∧ parameters = .missing)
      (CostEntry.readParameters parameters).outcome := by
  cases parameters with
  | missing => exact fun name => by simp
  | other => exact fun name => by simp
  | value ps =>
    unfold CostEntry.readParameters
    dsimp only
    split
    · exact fun name => by simp
    · exact fun name => by simp

theorem readCostType (kind : EntryKind) (d : Datum) :
    NamesMissing (fun name => kind = .general ∧ name = "cost_type" ∧ d.field? "cost_type" = none)
      (CostEntry.readCostType kind d).outcome := by
  have hread (v : Datum) : IsReading (do
      let name ← Field.word (kind.costTypes.map CostType.name) v
      (CostType.ofName? name).elim (throw (.ofField .notAmong)) pure) := by
    refine (IsReading.word _ v).bind fun name => ?_
    cases CostType.ofName? name with
    | none => exact .refused (by simp)
    | some t => exact .ok t
  cases kind with
  | general => exact (required d "cost_type" hread).congr fun name => by simp
  | observation => exact (withDefault d "cost_type" _ hread).congr fun name => by simp
  | posePrior => exact (withDefault d "cost_type" _ hread).congr fun name => by simp

theorem readReference (kind : EntryKind) (d : Datum) :
    NamesMissing (fun name => kind ≠ .general ∧ name ∈ kind.requiredFields ∧ d.field? name = none)
      (CostEntry.readReference kind d).outcome := by
  cases kind with
  | general => exact fun name => by simp
  | observation =>
    refine (((required d "image_id" IsReading.int).mapFields _).seq (required d "point3D_id" IsReading.int)).seq
      (required d "camera_model_name" IsReading.text) |>.congr fun name => ?_
    simp only [EntryKind.requiredFields, List.mem_cons, List.not_mem_nil]
    grind
  | posePrior =>
    refine ((required d "image_id" IsReading.int).mapFields _).seq
      (withDefault d "other_image_id" none (IsReading.nullable IsReading.int)) |>.congr fun name => ?_
    simp only [EntryKind.requiredFields, List.mem_cons, List.not_mem_nil]
    grind

end NamesMissing

/-- The computation takes the values of the named fields. It stops without a refusal at one that is not given; else its
result has the property. -/
def Takes (d : Datum) (names : List String) (P : α → Prop) : Except Fault α → Prop
  | .ok a => (∀ name ∈ names, d.field? name ≠ none) ∧ P a
  | .error fault => fault = .notFound ∧ ∃ name ∈ names, d.field? name = none

namespace Takes

variable {d : Datum} {names more : List String} {P : α → Prop} {Q : β → Prop}

theorem ok {a : α} (h : P a) : Takes d [] P (.ok a) := ⟨by simp, h⟩

theorem bind {x : Except Fault α} {f : α → Except Fault β} (h : Takes d names P x)
    (hf : ∀ a, P a → Takes d more Q (f a)) : Takes d (names ++ more) Q (x >>= f) := by
  cases x with
  | error fault =>
    obtain ⟨hfault, name, hname, hnone⟩ := h
    exact ⟨hfault, name, List.mem_append_left _ hname, hnone⟩
  | ok a =>
    obtain ⟨hgiven, ha⟩ := h
    have hrest := hf a ha
    change Takes d (names ++ more) Q (f a)
    cases hfa : f a with
    | error fault =>
      rw [hfa] at hrest
      obtain ⟨hfault, name, hname, hnone⟩ := hrest
      exact ⟨hfault, name, List.mem_append_right _ hname, hnone⟩
    | ok b =>
      rw [hfa] at hrest
      exact ⟨fun name hname => (List.mem_append.mp hname).elim (hgiven name) (hrest.1 name), hrest.2⟩

/-- What follows takes no further fields. -/
theorem bind_nil {x : Except Fault α} {f : α → Except Fault β} (h : Takes d names P x)
    (hf : ∀ a, P a → Takes d [] Q (f a)) : Takes d names Q (x >>= f) :=
  List.append_nil names ▸ h.bind hf

theorem need (d : Datum) (name : String) : Takes d [name] (fun _ => True) (EntryKind.need d name) := by
  unfold EntryKind.need
  cases hv : d.field? name with
  | none => exact ⟨rfl, name, List.mem_singleton_self name, hv⟩
  | some v => exact ⟨by simp [hv], trivial⟩

end Takes

namespace EntryKind

def describedBy : EntryKind → List String
  | general => []
  | observation => ["camera_model_name", "image_id", "point3D_id"]
  | posePrior => ["image_id"]

/-- The fields from which those are composed that are not given. -/
def sources : EntryKind → Datum → List String
  | general, _ => []
  | observation, d => (if d.field? "description" = none then observation.describedBy else [])
    ++ if d.field? "metadata" = none then ["image_id", "point3D_id"] else []
  | posePrior, d => if d.field? "description" = none then posePrior.describedBy else []

theorem takes_composeDescription {kind : EntryKind} (hkind : kind ≠ general) (d : Datum) :
    Takes d kind.describedBy (fun _ => True) (kind.composeDescription d) := by
  cases kind with
  | general => exact absurd rfl hkind
  | observation =>
    exact (Takes.need d "camera_model_name").bind fun _ _ => (Takes.need d "image_id").bind fun _ _ =>
      (Takes.need d "point3D_id").bind_nil fun _ _ => .ok trivial
  | posePrior =>
    refine (Takes.need d "image_id").bind_nil fun image _ => ?_
    split <;> exact .ok trivial

theorem takes_composeMetadata (d : Datum) :
    Takes d ["image_id", "point3D_id"] (fun _ => True) (composeMetadata d) :=
  (Takes.need d "image_id").bind fun _ _ => (Takes.need d "point3D_id").bind_nil fun _ _ => .ok trivial

/-- The fields of an entry after composition: the required ones as they were given, and a description if it can be
composed. -/
structure Completes (kind : EntryKind) (d completed : Datum) : Prop where
  required : ∀ name ∈ kind.requiredFields, completed.field? name = d.field? name
  description : kind ≠ general → completed.field? "description" ≠ none

theorem field?_append (fields : List (String × Datum)) (key : String) (v : Datum) {name : String} (h : name ≠ key) :
    (Datum.record (fields ++ [(key, v)])).field? name = (Datum.record fields).field? name := by
  have hkey : (name == key) = false := beq_false_of_ne h
  simp [Datum.field?, List.lookup_append, List.lookup_cons, hkey]

theorem field?_append_self (fields : List (String × Datum)) (key : String) (v : Datum) :
    (Datum.record (fields ++ [(key, v)])).field? key ≠ none := by
  simp [Datum.field?, List.lookup_append]

namespace Completes

variable {kind : EntryKind} {fields : List (String × Datum)} {d : Datum}

theorem self (h : kind ≠ general → d.field? "description" ≠ none) : kind.Completes d d := ⟨fun _ _ => rfl, h⟩

theorem describe (hkind : kind ≠ general) (v : Datum) :
    kind.Completes (.record fields) (.record (fields ++ [("description", v)])) where
  required name hname := by
    refine field?_append fields "description" v fun heq => ?_
    cases kind <;> simp_all [requiredFields]
  description _ := field?_append_self fields "description" v

theorem append_metadata (h : kind.Completes d (.record fields)) (v : Datum) :
    kind.Completes d (.record (fields ++ [("metadata", v)])) where
  required name hname := by
    refine (field?_append fields "metadata" v fun heq => ?_).trans (h.required name hname)
    cases kind <;> simp_all [requiredFields]
  description hkind := by
    rw [field?_append fields "metadata" v (by decide)]
    exact h.description hkind

/-- What is looked up after composition is missing when a required field was not given. -/
theorem missing_iff {completed : Datum} (h : kind.Completes d completed) (name : String) :
    name = "description" ∧ completed.field? "description" = none
      ∨ (kind = general ∧ name = "cost_type" ∧ completed.field? "cost_type" = none)
      ∨ (kind ≠ general ∧ name ∈ kind.requiredFields ∧ completed.field? name = none)
    ↔ name ∈ kind.requiredFields ∧ d.field? name = none := by
  by_cases hkind : kind = general
  · subst hkind
    have hdesc := h.required "description" (by simp [requiredFields])
    have htype := h.required "cost_type" (by simp [requiredFields])
    simp only [requiredFields, List.mem_cons, List.not_mem_nil]
    grind
  · have hdesc := h.description hkind
    have hname := h.required name
    grind

end Completes

/-- The second step of an observation: metadata are composed when none are given. -/
theorem takes_metadata {fields : List (String × Datum)} {d : Datum} (h : observation.Completes d (.record fields)) :
    Takes d (if d.field? "metadata" = none then ["image_id", "point3D_id"] else []) (observation.Completes d)
      (match d.field? "metadata" with
        | none => do return .record (fields ++ [("metadata", ← composeMetadata d)])
        | some _ => return .record fields) := by
  cases d.field? "metadata" with
  | none => exact (takes_composeMetadata d).bind_nil fun v _ => .ok (h.append_metadata v)
  | some v => exact .ok h

theorem takes_complete (kind : EntryKind) (fields : List (String × Datum)) :
    Takes (.record fields) (kind.sources (.record fields)) (kind.Completes (.record fields))
      (kind.complete (.record fields)) := by
  cases kind with
  | general => exact .ok (.self fun h => absurd rfl h)
  | observation =>
    -- Whether metadata are composed does not depend on the description, which only adds a field before it.
    cases hdesc : Datum.field? "description" (.record fields) with
    | none =>
      simp only [complete, sources, hdesc, if_true]
      exact (takes_composeDescription (by simp) _).bind fun text _ => takes_metadata (.describe (by simp) text)
    | some text =>
      simp only [complete, sources, hdesc, reduceCtorEq, if_false]
      exact takes_metadata (.self fun _ => by simp [hdesc])
  | posePrior =>
    cases hdesc : Datum.field? "description" (.record fields) with
    | none =>
      simp only [complete, sources, hdesc, if_true]
      exact (takes_composeDescription (by simp) _).bind_nil fun text _ => .ok (.describe (by simp) text)
    | some text =>
      simp only [complete, sources, hdesc, reduceCtorEq, if_false]
      exact .ok (.self fun _ => by simp [hdesc])

end EntryKind

namespace CostEntry

variable (kind : EntryKind) (cost : Given (Cost Float)) (parameters : Given (List (Option ρ)))

theorem checkCount_names (e : CostEntry Float ρ) : NamesMissing (fun _ => False) (checkCount e) := by
  unfold checkCount
  dsimp only
  split
  · exact .ok e
  · exact fun name => by simp

/-- The reading of completed fields names what is missing. -/
theorem ofFields_of_complete {d completed : Datum} (hcomplete : kind.complete d = .ok completed)
    (h : kind.Completes d completed) :
    NamesMissing (IsMissing kind cost parameters d) (ofFields kind cost parameters d) := by
  have hobjects := ((NamesMissing.readCost cost).mapFields CostEntry.mk).seq (.readParameters parameters)
  have hdescribed := (hobjects.seq (.required completed "description" .text)).seq (.readCostType kind completed)
  have hfields := ((hdescribed.seq (.withDefault completed "weight" 1 .float)).seq
    (.withDefault completed "metadata" [] .record)).seq (.readReference kind completed)
  unfold ofFields
  rw [hcomplete]
  refine (hfields.bind checkCount_names).congr fun name => ?_
  rw [IsMissing, ← h.missing_iff name]
  simp only [or_false, or_assoc]

/-- The reading of an entry stops without a refusal exactly where a field that is composed needs one that is not given.
In every other case it gives an entry or names all required fields that are missing. -/
theorem ofFields_names_missing (fields : List (String × Datum)) :
    (∃ name ∈ kind.sources (.record fields), Datum.field? name (.record fields) = none)
        ∧ ofFields kind cost parameters (.record fields) = .error .notFound
      ∨ (∀ name ∈ kind.sources (.record fields), Datum.field? name (.record fields) ≠ none)
        ∧ NamesMissing (IsMissing kind cost parameters (.record fields))
            (ofFields kind cost parameters (.record fields)) := by
  have htakes := kind.takes_complete fields
  cases hcomplete : kind.complete (.record fields) with
  | error fault =>
    rw [hcomplete] at htakes
    obtain ⟨rfl, habsent⟩ := htakes
    refine .inl ⟨habsent, ?_⟩
    rw [ofFields, hcomplete]
    rfl
  | ok completed =>
    rw [hcomplete] at htakes
    exact .inr ⟨htakes.1, ofFields_of_complete kind cost parameters hcomplete htakes.2⟩

/-- A prior with a description needs no field for composing, so that what is missing is named. -/
example : (ofFields .posePrior .missing .missing (.record [("description", .text "d")]) :
    Except Fault (CostEntry Float Unit)) =
      .error (.invalid [⟨["cost"], .missing⟩, ⟨["parameters"], .missing⟩, ⟨["image_id"], .missing⟩]) := rfl

def pinholeCost : Given (Cost Float) := .value (.measurement (.reprojection .pinhole ⟨310, 230⟩) 0)

def pinholeParameters : Given (List (Option (List Float))) :=
  .value [some [0, 0, 0, 1], some [0, 0, 4], some [0.3, -0.2, 0.5], some [500, 480, 320, 240]]

/-- The fields of an observation that has a description of its own, but no image. -/
def imageless : Datum :=
  .record [("description", .text "d"), ("point3D_id", .int 7), ("camera_model_name", .text "PINHOLE")]

/-- The description is given, yet the metadata need the image, which is not named as missing. -/
theorem ofFields_imageless :
    ofFields .observation pinholeCost pinholeParameters imageless = .error .notFound
      ∧ ¬NamesMissing (IsMissing .observation pinholeCost pinholeParameters imageless)
          (ofFields .observation pinholeCost pinholeParameters imageless) := by
  have hread : ofFields .observation pinholeCost pinholeParameters imageless = .error .notFound := rfl
  refine ⟨hread, ?_⟩
  rw [hread]
  exact id

end CostEntry

end BundleAdjustment
