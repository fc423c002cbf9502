import BundleAdjustment.Decimal.Binary64
import BundleAdjustment.Text.Blank
import BundleAdjustment.Text.Digit

/-! # Numerals

Reading numbers from text. A numeral is an optional sign before `inf`, `infinity`, `nan` in any case, or before digits
with an optional point and exponent. Array entries and record fields differ in the digits and
underscores that they admit around this grammar.
-/

namespace BundleAdjustment.Decimal

def isAsciiDigit (c : Char) : Bool := '0' ≤ c && c ≤ '9'

def digitsValue (digits : List Char) : Nat :=
  digits.foldl (fun n c => 10 * n + (c.toNat - '0'.toNat)) 0

/-- A leading sign, `true` for minus, and the rest. -/
def splitSign : List Char → Bool × List Char
  | '-' :: rest => (true, rest)
  | '+' :: rest => (false, rest)
  | rest => (false, rest)

/-- An exponent part, which may be absent but leaves nothing over. -/
def exponent? : List Char → Option Int
  | [] => some 0
  | mark :: rest =>
    let (negative, digits) := splitSign rest
    if (mark = 'e' ∨ mark = 'E') ∧ digits ≠ [] ∧ digits.all isAsciiDigit then
      some (if negative then -(digitsValue digits : Int) else digitsValue digits)
    else none

/-- Digits with an optional point and exponent. -/
def magnitude? (negative : Bool) (cs : List Char) : Option Float :=
  let whole := cs.takeWhile isAsciiDigit
  let rest := cs.dropWhile isAsciiDigit
  let (fraction, rest) := match rest with
    | '.' :: rest => (rest.takeWhile isAsciiDigit, rest.dropWhile isAsciiDigit)
    | rest => ([], rest)
  if whole = [] ∧ fraction = [] then none else
  (exponent? rest).map fun e =>
    floatOfDecimal negative (digitsValue (whole ++ fraction)) (e - fraction.length)

def numeral? (cs : List Char) : Option Float :=
  let (negative, rest) := splitSign cs
  let word := String.ofList (rest.map Char.toLower)
  if word = "inf" ∨ word = "infinity" then some (if negative then -1 / 0 else 1 / 0)
  else if word = "nan" then some (0 / 0)
  else magnitude? negative rest

/-- Drops the underscores that stand between two digits; there may be no others. -/
def joinDigitGroups? (cs : List Char) : Option (List Char) :=
  let rec go : Option Char → List Char → Option (List Char)
    | _, [] => some []
    | before, '_' :: rest =>
      match before, rest with
      | some b, a :: _ => if isAsciiDigit b && isAsciiDigit a then go (some '_') rest else none
      | _, _ => none
    | _, c :: rest => (go (some c) rest).map (c :: ·)
  go none cs

/-- The number that an array entry spells: digits of any script, in groups joined by single underscores. -/
def entry? (s : String) : Option Float :=
  (joinDigitGroups? ((Text.trim s.toList).map Text.asciiDigit)).bind numeral?

def hasDoubleUnderscore : List Char → Bool
  | '_' :: '_' :: _ => true
  | _ :: rest => hasDoubleUnderscore rest
  | [] => false

/-- The text without its underscores, if it has some, each inside and alone. -/
def dropUnderscores? (cs : List Char) : Option (List Char) :=
  if !cs.contains '_' || cs.head? == some '_' || cs.getLast? == some '_' || hasDoubleUnderscore cs then none
  else some (cs.filter (· != '_'))

/-- The number that a record field spells. Blanks at the ends or underscores inside are dropped, but not both. -/
def fieldFloat? (s : String) : Option Float :=
  match numeral? (Text.trim s.toList) with
  | some x => some x
  | none => (dropUnderscores? s.toList).bind numeral?

/-- What the text of a whole number can be. -/
inductive FieldInt where
  | number (value : Int)
  | malformed
  | tooLong

/-- The longest run of digits that is read as a whole number. -/
def maxDigits : Nat := 4300

/-- What follows zeros and underscores; of zeros alone, or before a point, the last character stays. -/
def afterZeros (last : Char) : List Char → Option (List Char)
  | [] => some [last]
  | c :: rest =>
    if c = '0' ∨ c = '_' then afterZeros c rest
    else if c = '-' ∨ isAsciiDigit c then some (c :: rest)
    else if c = '.' then some (last :: c :: rest)
    else none

/-- Drops the zeros in front of a whole number. A sign may stand before or behind them. -/
def dropLeadingZeros : List Char → Option (List Char)
  | [] => none
  | c :: rest =>
    if c = '0' then afterZeros c rest
    else if c = '-' ∨ isAsciiDigit c then some (c :: rest)
    else none

/-- The text up to a point that zeros follow and nothing else. -/
def dropZeroFraction (cs : List Char) : List Char :=
  match cs.dropWhile (· != '.') with
  | '.' :: '0' :: zeros => if zeros.all (· == '0') then cs.takeWhile (· != '.') else cs
  | _ => cs

/-- Reads a minus or none, and digits without zeros in front. -/
def wholeNumber (cs : List Char) : FieldInt :=
  let (negative, cs) := match cs with
    | '-' :: rest => (true, rest)
    | cs => (false, cs)
  let digits := cs.takeWhile isAsciiDigit
  if cs.head? == some '0' then (if cs = ['0'] then .number 0 else .malformed)
  else if maxDigits < digits.length then .tooLong
  else if digits = [] ∨ digits.length ≠ cs.length then .malformed
  else .number (if negative then -(digitsValue digits : Int) else digitsValue digits)

/-- The whole number that a record field spells: after a plus or none, with zeros in front, a fraction of zeros and
single underscores dropped in this order. -/
def fieldInt (s : String) : FieldInt :=
  let cs := match Text.trim s.toList with
    | '+' :: '-' :: _ => []
    | '+' :: rest => rest
    | cs => cs
  match dropLeadingZeros cs with
  | none => .malformed
  | some cs =>
    let cs := dropZeroFraction cs
    wholeNumber ((dropUnderscores? cs).getD cs)

end BundleAdjustment.Decimal
