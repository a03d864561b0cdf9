/-!
# JSON values and their compact form

A value keeps what a text says and nothing less: a number is the numeral that
was written, and an object is the list of its members in their order, so that a
value which is read and written again is the same text up to blanks and escapes.

The compact form has no blanks. Of the characters of a string only those are
escaped that may not stand for themselves: the quote, the backslash and the
control characters below the space, five of which have a letter of their own.
-/

namespace Rebind.Json

/-- A JSON value. -/
inductive Value where
  | null
  | bool (b : Bool)
  /-- A number, by its numeral. -/
  | number (numeral : String)
  | string (s : String)
  | array (items : List Value)
  | object (members : List (String × Value))
deriving Inhabited

/-- The letter that stands for a character behind a backslash, if it has one and needs one. -/
def escapeLetter? : Char → Option Char
  | '"' => some '"'
  | '\\' => some '\\'
  | '\x08' => some 'b'
  | '\t' => some 't'
  | '\n' => some 'n'
  | '\x0c' => some 'f'
  | '\r' => some 'r'
  | _ => none

/-- How one character is written inside a string. -/
def escape (c : Char) : List Char :=
  match escapeLetter? c with
  | some l => ['\\', l]
  | none =>
      if c.toNat < 0x20 then
        ['\\', 'u', '0', '0', Nat.digitChar (c.toNat / 16), Nat.digitChar (c.toNat % 16)]
      else [c]

/-- The characters of a string in quotes. -/
def quote (s : List Char) : List Char :=
  '"' :: s.flatMap escape ++ ['"']

mutual

/-- The compact form of a value, in front of what follows it. -/
def Value.compact : Value → List Char → List Char
  | .null, rest => 'n' :: 'u' :: 'l' :: 'l' :: rest
  | .bool true, rest => 't' :: 'r' :: 'u' :: 'e' :: rest
  | .bool false, rest => 'f' :: 'a' :: 'l' :: 's' :: 'e' :: rest
  | .number numeral, rest => numeral.toList ++ rest
  | .string s, rest => quote s.toList ++ rest
  | .array items, rest => '[' :: compactItems items (']' :: rest)
  | .object members, rest => '\x7b' :: compactMembers members ('\x7d' :: rest)

/-- The compact forms of the items of an array, with commas between them. -/
def compactItems : List Value → List Char → List Char
  | [], rest => rest
  | [v], rest => v.compact rest
  | v :: w :: vs, rest => v.compact (',' :: compactItems (w :: vs) rest)

/-- The compact forms of the members of an object, with commas between them. -/
def compactMembers : List (String × Value) → List Char → List Char
  | [], rest => rest
  | [(k, v)], rest => quote k.toList ++ ':' :: v.compact rest
  | (k, v) :: m :: ms, rest =>
      quote k.toList ++ ':' :: v.compact (',' :: compactMembers (m :: ms) rest)

end

/-- The compact form of a value, as a text. -/
def Value.render (v : Value) : String :=
  String.ofList (v.compact [])

example : (Value.object [("a\n", .array [.null, .number "1.0"]), ("b", .string "\x1f")]).render =
    "\x7b\"a\\n\":[null,1.0],\"b\":\"\\u001f\"\x7d" := by decide +kernel

end Rebind.Json
