import BundleAdjustment.Decimal.Shortest
import BundleAdjustment.Text.Quoted

/-! # Data

Values whose kind is known only when they are read: the fields of configurations, results and cost descriptions,
and the measurements from which costs are built.
-/

namespace BundleAdjustment

inductive Datum where
  | null
  | bool (value : Bool)
  | int (value : Int)
  | float (value : Float)
  | text (value : String)
  | list (items : List Datum)
  | record (fields : List (String × Datum))

namespace Datum

def boolText (b : Bool) : String := if b then "True" else "False"

mutual

/-- How a value is named in a message. Text is quoted. -/
def literal : Datum → String
  | null => "None"
  | bool b => boolText b
  | int i => toString i
  | float x => Decimal.shortest x
  | text s => Text.quoted s
  | list items => "[" ++ ", ".intercalate (literals items) ++ "]"
  | record fields => "\x7b" ++ ", ".intercalate (fieldLiterals fields) ++ "\x7d"

def literals : List Datum → List String
  | [] => []
  | d :: rest => d.literal :: literals rest

def fieldLiterals : List (String × Datum) → List String
  | [] => []
  | (name, d) :: rest => (Text.quoted name ++ ": " ++ d.literal) :: fieldLiterals rest

end

/-- How a value reads inside a sentence: text stands for itself. -/
def plain : Datum → String
  | text s => s
  | d => d.literal

def isNull : Datum → Bool
  | null => true
  | _ => false

def isBool : Datum → Bool
  | bool _ => true
  | _ => false

def isText : Datum → Bool
  | text _ => true
  | _ => false

def isRecord : Datum → Bool
  | record _ => true
  | _ => false

/-- The whole number that a datum equals, if any. Truth values count as one and zero, and a double is compared by its
exact value. -/
def whole? : Datum → Option Int
  | bool b => some (if b then 1 else 0)
  | int i => some i
  | float x =>
    match Decimal.Binary64.ofFloat x with
    | .finite negative m e =>
      let (num, den) := Decimal.Binary64.ratio m e
      if num % den = 0 then some (if negative then -(num / den : Nat) else (num / den : Nat)) else none
    | _ => none
  | _ => none

/-- The value of the first field of that name. -/
def field? (name : String) : Datum → Option Datum
  | record fields => fields.lookup name
  | _ => none

end Datum

end BundleAdjustment
