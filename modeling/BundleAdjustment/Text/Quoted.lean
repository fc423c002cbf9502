import BundleAdjustment.Text.Printable

/-! # Quoted text

Text as it stands in messages: between quotes, on one line, every character visible.
-/

namespace BundleAdjustment.Text

/-- The last `width` hexadecimal digits of a number, in lower case. -/
def hexDigits (width n : Nat) : String :=
  let digits := Nat.toDigits 16 n
  String.ofList (List.replicate (width - digits.length) '0' ++ digits)

/-- A character inside the given quotes. An unprintable one is written by its code point, in the shortest of three
widths. -/
def quotedChar (quote c : Char) : String :=
  if c = quote ∨ c = '\\' then String.ofList ['\\', c]
  else if c = '\n' then "\\n"
  else if c = '\r' then "\\r"
  else if c = '\t' then "\\t"
  else if isPrintable c then c.toString
  else
    let n := c.toNat
    if n < 0x100 then "\\x" ++ hexDigits 2 n
    else if n < 0x10000 then "\\u" ++ hexDigits 4 n
    else "\\U" ++ hexDigits 8 n

/-- Single quotes, unless the text has a single quote and no double quote. -/
def quoteOf (s : String) : Char :=
  if s.toList.contains '\'' && !s.toList.contains '"' then '"' else '\''

def quoted (s : String) : String :=
  let quote := quoteOf s
  quote.toString ++ String.join (s.toList.map (quotedChar quote)) ++ quote.toString

end BundleAdjustment.Text
