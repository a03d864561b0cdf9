import Rebind.Json.Bracket

/-!
# Records

A record has named fields, and is written as an object with the fields in any
order, or as a list of them in the order of their declaration. An object may
name each field once and nothing else; a list may end early but not go on.

Values are read into slots, one for each field. Whether a slot may stay empty is
decided at the end, when the record is completed from its slots.
-/

namespace Rebind.Json

/-- A field of a record whose slots are kept in a `σ`. -/
structure Field (σ : Type) where
  name : String
  /-- Whether the slot of the field is taken. -/
  isSet : σ → Bool
  /-- Reads the value of the field into its slot. -/
  read : σ → Reader σ

/-- A kind of record: how it is read into slots of type `σ`, and made from them. -/
structure Record (σ α : Type) where
  /-- The name of the kind in messages. -/
  title : String
  fields : List (Field σ)
  /-- All slots empty. -/
  blank : σ
  /-- The record, or the name of the first field that is missing. -/
  complete : σ → Except String α

namespace Record

variable {σ α : Type}

/-- Steps over the colon behind a key. -/
def colon : Reader Unit := do
  Reader.skipBlanks
  match ← Reader.peek with
  | none => Reader.fail .endOfObject
  | some ':' => Reader.skip
  | some _ => Reader.failNext .colonDue

/-- Reads a member of an object: a key, and the value of the field it names. -/
def member (r : Record σ α) (s : σ) : Reader σ := do
  match ← Reader.peek with
  | some '"' =>
      let key ← Reader.stringLiteral
      match r.fields.find? (·.name == key) with
      | none => Bracket.object.failPast (.unknownField key (r.fields.map (·.name)))
      | some field =>
          if field.isSet s then Bracket.object.failPast (.duplicateField key)
          else
            colon
            field.read s
  | _ => Reader.failNext .keyNotString

/-- Reads a record from an object whose opening bracket has been read. -/
def object (r : Record σ α) : Reader α := do
  let s ← Bracket.object.items r.member r.blank
  Reader.skip
  match r.complete s with
  | .ok a => return a
  | .error name => Reader.fail (.missingField name)

/-- Reads the values of fields in their order, up to the last or to the closing bracket, and counts
them. Before the first one there is no comma. -/
def values (isFirst : Bool) : List (Field σ) → σ → Reader (Nat × σ)
  | [], s => return (0, s)
  | field :: fields, s => do
    if ← (if isFirst then Bracket.list.first else Bracket.list.next) then
      let s' ← field.read s
      let (count, s'') ← values false fields s'
      return (count + 1, s'')
    else return (0, s)

/-- Closes a list that stands for a record. Nothing may follow the last value, and a comma is only
told from other characters when the closing bracket is next to it. -/
def closeList : Reader Unit := do
  Reader.skipBlanks
  match ← Reader.peek with
  | none => Reader.fail .endOfList
  | some ']' => Reader.skip
  | some ',' =>
      Reader.skip
      Reader.skipBlanks
      if (← Reader.peek) = some ']' then Reader.failNext .trailingComma
      else Reader.failNext .trailingCharacters
  | some _ => Reader.failNext .trailingCharacters

/-- Reads a record from a list whose opening bracket has been read. -/
def list (r : Record σ α) : Reader α := do
  let (count, s) ← values true r.fields r.blank
  closeList
  match r.complete s with
  | .ok a => return a
  | .error _ => Reader.fail (.wrongLength count r.title r.fields.length)

/-- Reads a record in either form. -/
def reader (r : Record σ α) : Reader α := do
  Reader.skipBlanks
  match ← Reader.peek with
  | none => Reader.fail .endOfValue
  | some '[' => do
      Reader.skip
      r.list
  | some '\x7b' => do
      Reader.skip
      r.object
  | some _ => Reader.wrongType (.record r.title)

end Record

end Rebind.Json
