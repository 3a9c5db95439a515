/-!
# Numbers in texts

An unsigned number is written as decimal digits after an optional plus sign. It fits into 64 bits.
`readUnsigned` reads the digits from the left, so the first thing that is wrong decides how a text
is refused.

A decimal number is written as digits, with at most one point before, between or behind them, and
perhaps an exponent. Infinity and what is not a number can be written out. Any of these may carry a
sign. `isDecimal` tells such a text from others.
-/

namespace WriteAhead.Text

/-! ## Unsigned numbers -/

/-- Why a text is not an unsigned number. -/
inductive UnsignedFault where
  | empty
  | badDigit
  | tooLarge
  deriving DecidableEq, Repr

/-- The fault in words. -/
def UnsignedFault.message : UnsignedFault → String
  | .empty => "cannot parse integer from empty string"
  | .badDigit => "invalid digit found in string"
  | .tooLarge => "number too large to fit in target type"

/-- The number `n` with one more digit at its end. -/
def pushDigit (n : Nat) (c : Char) : Except UnsignedFault Nat :=
  if c.isDigit then
    let m := 10 * n + (c.toNat - '0'.toNat)
    if m < UInt64.size then .ok m else .error .tooLarge
  else .error .badDigit

/-- The number that some digits write. -/
def readDigits (cs : List Char) : Except UnsignedFault Nat := cs.foldlM pushDigit 0

/-- The number that a text writes. -/
def readUnsigned (s : String) : Except UnsignedFault Nat :=
  match s.toList with
  | [] => .error .empty
  | ['+'] => .error .badDigit
  | '+' :: ds => readDigits ds
  | ds => readDigits ds

/-! ## Decimal numbers -/

/-- A text without its sign, if it has one. -/
def unsigned : List Char → List Char
  | '+' :: cs | '-' :: cs => cs
  | cs => cs

/-- Whether a text is an exponent or nothing. -/
def isExponent : List Char → Bool
  | [] => true
  | c :: cs => (c = 'e' || c = 'E') && unsigned cs ≠ [] && (unsigned cs).all Char.isDigit

/-- Whether a text is digits with at most one point, and perhaps an exponent. -/
def isDigits (cs : List Char) : Bool :=
  match cs.takeWhile Char.isDigit, cs.dropWhile Char.isDigit with
  | whole, '.' :: rest =>
    (whole ≠ [] || rest.takeWhile Char.isDigit ≠ []) && isExponent (rest.dropWhile Char.isDigit)
  | whole, rest => whole ≠ [] && isExponent rest

/-- The numbers that are written out. -/
def numberWords : List String := ["inf", "infinity", "nan"]

/-- Whether a text writes a decimal number. -/
def isDecimal (s : String) : Bool :=
  isDigits (unsigned s.toList) ||
    (String.ofList (unsigned s.toList)).toLower ∈ numberWords

end WriteAhead.Text
