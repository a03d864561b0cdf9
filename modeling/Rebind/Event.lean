import Rebind.Options.Reader
import Rebind.Rewrite.Note
import Rebind.Rewrite.Substitution

/-!
# Events

What is reported while options are read and programs are rewritten, one event
after the other. An event has a level, a message, and named fields.
-/

namespace Rebind

/-- How much an event matters. -/
inductive Level where
  | debug
  | info
  | warn
deriving DecidableEq, Repr

/-- The name of a level. -/
def Level.name : Level → String
  | .debug => "DEBUG"
  | .info => "INFO"
  | .warn => "WARN"

/-- Something worth a report. -/
inductive Event where
  /-- A definition was left out of the table. -/
  | duplicate (d : Duplicate)
  /-- Options were rejected, and the usual ones are used. -/
  | optionsIgnored (r : Rejection)
  /-- A class was replaced. -/
  | substituted (s : Substitution)
  /-- A decorator was skipped that has no single argument. -/
  | argumentCount (file : String) (count : Nat)
  /-- A decorator was skipped whose argument is no object literal. -/
  | notObject (file : String)
  /-- A script became a module. -/
  | promoted (file : String)
deriving DecidableEq

namespace Event

/-- The level of an event. -/
def level : Event → Level
  | .duplicate _ | .optionsIgnored _ => .warn
  | .substituted _ => .info
  | .argumentCount .. | .notObject _ | .promoted _ => .debug

/-- The message of an event. -/
def message : Event → String
  | .duplicate _ => "duplicate custom layer replacement, keeping the first definition"
  | .optionsIgnored _ => "ignoring custom layer configuration"
  | .substituted s => s.display
  | .argumentCount .. => "skipping decorator without a single metadata argument"
  | .notObject _ => "skipping decorator whose metadata is not an object literal"
  | .promoted _ => "promoting script to module for custom layer imports"

/-- The fields of an event. -/
def fields : Event → List (String × Json.Value)
  | .duplicate d => [("original", .string d.original), ("kept", .string d.kept),
      ("ignored", .string d.ignored)]
  | .optionsIgnored r => [("err", .string r.message)]
  | .substituted s => [("record", .string s.record)]
  | .argumentCount file count => [("file", .string file), ("args", .number (toString count))]
  | .notObject file | .promoted file => [("file", .string file)]

end Event

/-- The event that tells what a rewrite took note of in a file. -/
def Note.event (file : String) : Note → Event
  | .substituted r => .substituted (r.substitution file)
  | .argumentCount count => .argumentCount file count
  | .notObject => .notObject file

end Rebind
