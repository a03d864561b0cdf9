import Rebind.Decimal
import Rebind.Text.Quoted

/-!
# Faults in a JSON text

Reading stops at the first fault. A fault has a cause and a place, which is the
number of bytes before the point at which it was noticed. The causes tell apart
what a text can get wrong as JSON, and what it can get wrong as the record that
it was read as; each has its message.

For people the place is a line, counted from one, and the number of bytes since
the last line break. A fault behind a line break is on the next line, in column
zero.
-/

namespace Rebind.Json

/-- The value of a numeral: whole numbers of 64 bits are kept exactly, all others as floats. -/
inductive Number where
  | whole (n : Int)
  | real (x : Float)
deriving DecidableEq

/-- What stands in the text where something else was wanted. -/
inductive Found where
  | null
  | boolean (b : Bool)
  | number (n : Number)
  | string (s : String)
  | list
  | object
deriving DecidableEq

/-- What a place in the text was read as. -/
inductive Wanted where
  | record (title : String)
  | list
  | string
  | boolean
deriving DecidableEq, Repr

/-- Why a text cannot be read. -/
inductive Cause where
  /-- The text ends where a value was due. -/
  | endOfValue
  /-- The text ends inside a list. -/
  | endOfList
  /-- The text ends inside an object. -/
  | endOfObject
  /-- The text ends inside a string. -/
  | endOfString
  /-- A character that starts no value stands where a value was due. -/
  | valueDue
  /-- A word that starts like `null`, `true` or `false` goes on otherwise. -/
  | brokenWord
  /-- A key is not followed by a colon. -/
  | colonDue
  /-- Two items of a list have no comma between them. -/
  | listCommaDue
  /-- Two members of an object have no comma between them. -/
  | objectCommaDue
  /-- A member of an object does not start with a string. -/
  | keyNotString
  /-- A comma stands before a closing bracket. -/
  | trailingComma
  /-- Something stands behind the end. -/
  | trailingCharacters
  /-- A numeral breaks off or goes on wrongly. -/
  | brokenNumber
  /-- A numeral stands for more than any float does. -/
  | hugeNumber
  /-- A control character stands for itself in a string. -/
  | controlCharacter
  /-- A backslash is followed by something that it does not escape. -/
  | brokenEscape
  /-- The first half of a surrogate pair is not followed by another code unit. -/
  | halfPair
  /-- One of two code units is not the half of a pair that it would have to be. -/
  | loneSurrogate
  /-- A value of one kind stands where another kind was wanted. -/
  | wrongType (found : Found) (wanted : Wanted)
  /-- A list that stands for a record has too few items. -/
  | wrongLength (length : Nat) (title : String) (fields : Nat)
  /-- A key names no field of the record. -/
  | unknownField (name : String) (known : List String)
  /-- A key names a field a second time. -/
  | duplicateField (name : String)
  /-- A field that has no default is not given. -/
  | missingField (name : String)
deriving DecidableEq

/-- A cause, and the number of bytes before the point at which it was noticed. -/
structure Fault where
  cause : Cause
  offset : Nat
deriving DecidableEq

/-! ## Wording -/

/-- A name between backticks. -/
def ticked (name : String) : String :=
  "`" ++ name ++ "`"

/-- How a message describes a value that was found. -/
def Found.describe : Found → String
  | .null => "null"
  | .boolean b => "boolean " ++ ticked (if b then "true" else "false")
  | .number (.whole n) => "integer " ++ ticked (toString n)
  | .number (.real x) => "floating point " ++ ticked (Decimal.text x)
  | .string s => "string " ++ Text.quoted s
  | .list => "sequence"
  | .object => "map"

/-- How a message describes what was wanted. -/
def Wanted.describe : Wanted → String
  | .record title => "struct " ++ title
  | .list => "a sequence"
  | .string => "a string"
  | .boolean => "a boolean"

/-- How a message lists the fields of a record, two of them in a phrase of its own. -/
def describeFields (names : List String) : String :=
  match names with
  | [a, b] => ticked a ++ " or " ++ ticked b
  | _ => "one of " ++ ", ".intercalate (names.map ticked)

/-- The message of a cause, without its place. -/
def Cause.message : Cause → String
  | .endOfValue => "EOF while parsing a value"
  | .endOfList => "EOF while parsing a list"
  | .endOfObject => "EOF while parsing an object"
  | .endOfString => "EOF while parsing a string"
  | .valueDue => "expected value"
  | .brokenWord => "expected ident"
  | .colonDue => "expected `:`"
  | .listCommaDue => "expected `,` or `]`"
  | .objectCommaDue => "expected `,` or `\x7d`"
  | .keyNotString => "key must be a string"
  | .trailingComma => "trailing comma"
  | .trailingCharacters => "trailing characters"
  | .brokenNumber => "invalid number"
  | .hugeNumber => "number out of range"
  | .controlCharacter => "control character (\\u0000-\\u001F) found while parsing a string"
  | .brokenEscape => "invalid escape"
  | .halfPair => "unexpected end of hex escape"
  | .loneSurrogate => "lone leading surrogate in hex escape"
  | .wrongType found wanted =>
      "invalid type: " ++ found.describe ++ ", expected " ++ wanted.describe
  | .wrongLength length title fields =>
      "invalid length " ++ toString length ++ ", expected struct " ++ title ++ " with "
        ++ toString fields ++ " elements"
  | .unknownField name known =>
      "unknown field " ++ ticked name ++ ", expected " ++ describeFields known
  | .duplicateField name => "duplicate field " ++ ticked name
  | .missingField name => "missing field " ++ ticked name

/-! ## Places for people -/

/-- A point in a text, for people. -/
structure Position where
  /-- The number of the line, from one. -/
  line : Nat
  /-- The number of bytes between the last line break and the point. -/
  column : Nat
deriving DecidableEq, Repr

namespace Position

/-- The point before the first character. -/
def start : Position := ⟨1, 0⟩

/-- The point behind one more character. -/
def advance (p : Position) (c : Char) : Position :=
  if c = '\n' then ⟨p.line + 1, 0⟩ else ⟨p.line, p.column + c.utf8Size⟩

/-- The point that lies so many bytes behind `p` in the text that follows `p`; it may lie inside a
character, and lies at the end of the text at most. -/
def forward (p : Position) : Nat → List Char → Position
  | _, [] => p
  | n, c :: cs =>
      if c.utf8Size ≤ n then (p.advance c).forward (n - c.utf8Size) cs
      else ⟨p.line, p.column + n⟩

/-- The point with so many bytes of the text before it. -/
def ofOffset (text : String) (offset : Nat) : Position :=
  start.forward offset text.toList

end Position

/-- The message of a cause, with its place. -/
def Cause.messageAt (cause : Cause) (p : Position) : String :=
  cause.message ++ " at line " ++ toString p.line ++ " column " ++ toString p.column

end Rebind.Json
