import WriteAhead.Text.Printable

/-!
# Structured text

A text is quoted between double quotes. A double quote, a backslash and the usual control characters
are written with a backslash; any other character that is not printable is written by its code
point, in hexadecimal between braces.

A value with named fields is written as its name and its fields between braces. A `record` shows all
of its fields; an `openRecord` does not, and ends in two dots.
-/

namespace WriteAhead.Text

/-! ## Quoted text -/

/-- A code point in hexadecimal, between braces. -/
def escapeCodePoint (c : Char) : List Char :=
  '\\' :: 'u' :: '\x7b' :: Nat.toDigits 16 c.toNat ++ ['\x7d']

/-- What a character is written as between the quotes. -/
def escape (c : Char) : List Char :=
  match c with
  | '\x00' => ['\\', '0']
  | '\t' => ['\\', 't']
  | '\r' => ['\\', 'r']
  | '\n' => ['\\', 'n']
  | '\\' => ['\\', '\\']
  | '\"' => ['\\', '\"']
  | c => if isPrintable c then [c] else escapeCodePoint c

/-- The text between double quotes, with escapes. -/
def quote (s : String) : String :=
  String.ofList ('\"' :: s.toList.flatMap escape ++ ['\"'])

/-! ## Records -/

/-- The fields of a record, each as its name, a colon and its value. -/
def recordFields (fields : List (String × String)) : List String :=
  fields.map fun (name, value) => name ++ ": " ++ value

/-- A record that shows all of its fields. -/
def record (name : String) (fields : List (String × String)) : String :=
  name ++ " \x7b " ++ ", ".intercalate (recordFields fields) ++ " \x7d"

/-- A record that keeps some of its fields to itself. -/
def openRecord (name : String) (fields : List (String × String)) : String :=
  name ++ " \x7b " ++ ", ".intercalate (recordFields fields ++ [".."]) ++ " \x7d"

end WriteAhead.Text
