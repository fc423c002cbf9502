import BundleAdjustment.Decimal.Numeral
import BundleAdjustment.Fault

/-! # Fields of records

Reading typed values out of records. Readers are lenient about the kind of a value where its meaning is clear; the
issues of all fields of a record are gathered, in the order of the fields.
-/

namespace BundleAdjustment

namespace Fault

/-- The fault of a single value, before its field is known. -/
def ofField (f : FieldFault) : Fault := invalid [⟨[], f⟩]

/-- A fault met while one field was read: refusals of its value become issues of the field, any other fault stays. -/
def inField (name : String) : Fault → Fault
  | invalid issues => invalid (issues.map fun i => { i with path := name :: i.path })
  | f => if f.family = .value then invalid [⟨[name], .refused f.message?⟩] else f

end Fault

structure Validated (α : Type) where
  outcome : Except Fault α

namespace Validated

variable {α β : Type}

/-- Issues on both sides are gathered; any other fault ends the reading where it is met. -/
def seq (f : Validated (α → β)) (x : Unit → Validated α) : Validated β :=
  ⟨match f.outcome with
    | .ok f => (x ()).outcome.map f
    | .error (.invalid before) =>
      match (x ()).outcome with
      | .ok _ => .error (.invalid before)
      | .error (.invalid after) => .error (.invalid (before ++ after))
      | .error fault => .error fault
    | .error fault => .error fault⟩

instance : Applicative Validated where
  pure a := ⟨.ok a⟩
  seq := seq

end Validated

namespace Field

variable {α : Type}

def required (d : Datum) (name : String) (read : Datum → Except Fault α) : Validated α :=
  ⟨match d.field? name with
    | some v => (read v).mapError (Fault.inField name)
    | none => .error (.invalid [⟨[name], .missing⟩])⟩

def withDefault (d : Datum) (name : String) (default : α) (read : Datum → Except Fault α) : Validated α :=
  ⟨match d.field? name with
    | some v => (read v).mapError (Fault.inField name)
    | none => .ok default⟩

/-- The words for truth values, in lower case. -/
def boolOfWord? (word : String) : Option Bool :=
  if ["1", "t", "true", "y", "yes", "on"].contains word then some true
  else if ["0", "f", "false", "n", "no", "off"].contains word then some false
  else none

/-- Whether a whole number fits a signed word of 64 bits. -/
def fitsWord (i : Int) : Bool := decide (-9223372036854775808 ≤ i ∧ i < 9223372036854775808)

/-- Whether a double without fraction is read as a whole number: the least word is out of its reach. -/
def isWithinWords (i : Int) : Bool := decide (-9223372036854775808 < i ∧ i < 9223372036854775808)

/-- One is true and zero is false; what other numbers fail at depends on their size. -/
def boolOfInt (fits : Int → Bool) (i : Int) : Except Fault Bool :=
  if i = 1 then pure true
  else if i = 0 then pure false
  else throw (.ofField (if fits i then .unreadableBool else .notBool))

/-- Reads a truth value: itself, one or zero, or a word. -/
def bool : Datum → Except Fault Bool
  | .bool b => pure b
  | .int i => boolOfInt fitsWord i
  | .float x => (Datum.whole? (.float x)).elim (throw (.ofField .notBool)) (boolOfInt isWithinWords)
  | .text s =>
    match boolOfWord? (String.ofList (s.toList.map Char.toLower)) with
    | some b => pure b
    | none => throw (.ofField .unreadableBool)
  | _ => throw (.ofField .notBool)

/-- Reads a whole number: itself, a truth value, a double without fraction, or a numeral. -/
def int : Datum → Except Fault Int
  | .bool b => pure (if b then 1 else 0)
  | .int i => pure i
  | .float x =>
    if !x.isFinite then throw (.ofField .notFinite) else
    match Datum.whole? (.float x) with
    | some i => if isWithinWords i then pure i else throw (.ofField .oversizedInt)
    | none => throw (.ofField .fractionalInt)
  | .text s =>
    match Decimal.fieldInt s with
    | .number i => pure i
    | .malformed => throw (.ofField .unreadableInt)
    | .tooLong => throw (.ofField .oversizedInt)
  | _ => throw (.ofField .notInt)

/-- Reads a double: any number, a truth value or a numeral. -/
def float : Datum → Except Fault Float
  | .bool b => pure (if b then 1 else 0)
  | .int i =>
    let x := Decimal.floatOfInt i
    if x.isFinite then pure x else throw (.ofField .notFloat)
  | .float x => pure x
  | .text s =>
    match Decimal.fieldFloat? s with
    | some x => pure x
    | none => throw (.ofField .unreadableFloat)
  | _ => throw (.ofField .notFloat)

def text : Datum → Except Fault String
  | .text s => pure s
  | _ => throw (.ofField .notText)

def word (allowed : List String) : Datum → Except Fault String
  | .text s => if allowed.contains s then pure s else throw (.ofField .notAmong)
  | _ => throw (.ofField .notAmong)

def record : Datum → Except Fault (List (String × Datum))
  | .record fields => pure fields
  | _ => throw (.ofField .notRecord)

def nullable (read : Datum → Except Fault α) : Datum → Except Fault (Option α)
  | .null => pure none
  | d => some <$> read d

end Field

end BundleAdjustment
