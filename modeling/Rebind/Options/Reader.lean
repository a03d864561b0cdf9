import Rebind.Json.Record
import Rebind.Options.Basic

/-!
# Reading options

Options are read from a JSON text in three steps, and each step comes only after
the one before it has succeeded. First the value is read, whatever follows it.
Then its settings are checked, in their order. Then the table is filled, which
reports the definitions that are left out, and last it is made sure that nothing
but blanks follows the value.
-/

namespace Rebind

open Json

/-! ## Definitions of replacements -/

/-- The slots of the class and the path that a definition names. -/
structure TargetSlots where
  className : Option String := none
  modulePath : Option String := none

/-- The second part of a definition: the class to use, and the path to import it from. -/
def targetRecord : Record TargetSlots (String × String) where
  title := "ReplacementTarget"
  fields := [
    ⟨"className", (·.className.isSome), fun s => do
      return { s with className := some (← Reader.string) }⟩,
    ⟨"import", (·.modulePath.isSome), fun s => do
      return { s with modulePath := some (← Reader.string) }⟩]
  blank := {}
  complete s :=
    match s.className, s.modulePath with
    | none, _ => .error "className"
    | some _, none => .error "import"
    | some className, some modulePath => .ok (className, modulePath)

/-- The slots of a definition. -/
structure DefinitionSlots where
  original : Option String := none
  target : Option (String × String) := none

/-- A definition: the class to replace, and what to use in its place. -/
def definitionRecord : Record DefinitionSlots Replacement where
  title := "ReplacementDefinition"
  fields := [
    ⟨"replace", (·.original.isSome), fun s => do
      return { s with original := some (← Reader.string) }⟩,
    ⟨"with", (·.target.isSome), fun s => do
      return { s with target := some (← targetRecord.reader) }⟩]
  blank := {}
  complete s :=
    match s.original, s.target with
    | none, _ => .error "replace"
    | some _, none => .error "with"
    | some original, some (className, modulePath) => .ok ⟨original, className, modulePath⟩

/-! ## Options as they are written -/

/-- Options before they are checked, with the definitions in their order. -/
structure Draft where
  replacements : List Replacement
  decorators : List String
  bindKey : String
  implementKey : String
  dedupeImports : Bool
deriving DecidableEq, Repr

/-- The slots of options. Each may stay empty. -/
structure DraftSlots where
  replacements : Option (List Replacement) := none
  decorators : Option (List String) := none
  bindKey : Option String := none
  implementKey : Option String := none
  dedupeImports : Option Bool := none

/-- The options with these settings, and the usual ones for the rest. -/
def DraftSlots.draft (s : DraftSlots) : Draft :=
  let usual : Options := {}
  { replacements := s.replacements.getD []
    decorators := s.decorators.getD usual.decorators
    bindKey := s.bindKey.getD usual.bindKey
    implementKey := s.implementKey.getD usual.implementKey
    dedupeImports := s.dedupeImports.getD usual.dedupeImports }

/-- Options, all of whose settings may be left out. -/
def draftRecord : Record DraftSlots Draft where
  title := "RawConfig"
  fields := [
    ⟨"replacements", (·.replacements.isSome), fun s => do
      return { s with replacements := some (← Reader.list definitionRecord.reader) }⟩,
    ⟨"decorators", (·.decorators.isSome), fun s => do
      return { s with decorators := some (← Reader.list Reader.string) }⟩,
    ⟨"bindKey", (·.bindKey.isSome), fun s => do
      return { s with bindKey := some (← Reader.string) }⟩,
    ⟨"implementKey", (·.implementKey.isSome), fun s => do
      return { s with implementKey := some (← Reader.string) }⟩,
    ⟨"dedupeImports", (·.dedupeImports.isSome), fun s => do
      return { s with dedupeImports := some (← Reader.boolean) }⟩]
  blank := {}
  complete s := .ok s.draft

namespace Draft

/-- The first problem of the options. -/
def problem? (d : Draft) : Option Problem :=
  d.decorators.findSome? Setting.decorators.problem?
    <|> Setting.bindKey.problem? d.bindKey
    <|> Setting.implementKey.problem? d.implementKey
    <|> d.replacements.findSome? Replacement.problem?

/-- The options, and the definitions that are left out. -/
def options (d : Draft) : Options × List Duplicate :=
  let (table, duplicates) := Table.ofList d.replacements
  ({ table
     decorators := d.decorators
     bindKey := d.bindKey
     implementKey := d.implementKey
     dedupeImports := d.dedupeImports }, duplicates)

end Draft

/-! ## From text to options -/

/-- Why a text is rejected. -/
inductive Rejection where
  /-- The text cannot be read. -/
  | malformed (cause : Cause) (position : Position)
  /-- What it says is unsound. -/
  | unsound (problem : Problem)
deriving DecidableEq

/-- What a rejection says of the text, without saying what the text was meant to be. -/
def Rejection.detail : Rejection → String
  | .malformed cause position => cause.messageAt position
  | .unsound problem => problem.message

/-- The message of a rejection. -/
def Rejection.message (r : Rejection) : String :=
  "invalid custom layer configuration: " ++ r.detail

/-- The message of a text that cannot be read ends with the place of the fault. -/
theorem Rejection.message_malformed (cause : Cause) (p : Position) :
    (malformed cause p).message =
      "invalid custom layer configuration: " ++ cause.message ++
        " at line " ++ toString p.line ++ " column " ++ toString p.column := by
  unfold message detail Cause.messageAt
  simp only [String.append_assoc]

/-- The message of unsound options names no place. -/
theorem Rejection.message_unsound (problem : Problem) :
    (unsound problem).message = "invalid custom layer configuration: " ++ problem.message := by
  unfold message detail
  rfl

/-- The rejection of a text for a fault in it. -/
def Rejection.ofFault (text : String) (f : Fault) : Rejection :=
  .malformed f.cause (Position.ofOffset text f.offset)

/-- What comes of reading options: the options or a rejection, and the definitions that were left
out on the way. -/
structure Reading where
  result : Except Rejection Options
  duplicates : List Duplicate

/-- Reads options from a text. -/
def Options.read (text : String) : Reading :=
  match draftRecord.reader.run (.start text) with
  | .error f => ⟨.error (.ofFault text f), []⟩
  | .ok (draft, c) =>
      match draft.problem? with
      | some p => ⟨.error (.unsound p), []⟩
      | none =>
          let (options, duplicates) := draft.options
          match Reader.finish.run c with
          | .error f => ⟨.error (.ofFault text f), duplicates⟩
          | .ok _ => ⟨.ok options, duplicates⟩

/-- Reads a single definition from a text. Here the end of the text comes before the checks. -/
def Replacement.read (text : String) : Except Rejection Replacement :=
  match (do let r ← definitionRecord.reader; Reader.finish; return r).run (.start text) with
  | .error f => .error (.ofFault text f)
  | .ok (r, _) =>
      match r.problem? with
      | some p => .error (.unsound p)
      | none => .ok r

end Rebind
