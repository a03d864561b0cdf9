import Rebind.Text.Characters
import Rebind.Text.Quoted

/-!
# Replacements

A replacement says which class takes the place of another, and where the module
that uses it has to import it from. Both classes have to be plain identifiers
and the path may not be blank, or the code that is made from the replacement
would not be code; the checks go in this order, and the first failure is the one
that is reported.
-/

namespace Rebind

/-- A class to take the place of `original`, and the path of the module that exports it. -/
structure Replacement where
  original : String
  className : String
  modulePath : String
deriving DecidableEq, Repr

/-- The settings that have to be plain identifiers. -/
inductive Setting where
  | decorators
  | bindKey
  | implementKey
  | replace
  | className
deriving DecidableEq, Repr

/-- Where a setting stands in the options. -/
def Setting.name : Setting → String
  | .decorators => "decorators"
  | .bindKey => "bindKey"
  | .implementKey => "implementKey"
  | .replace => "replace"
  | .className => "with.className"

/-- What is wrong with options that can be read. -/
inductive Problem where
  | notIdentifier (setting : Setting) (value : String)
  | blankPath (original : String)
deriving DecidableEq, Repr

/-- The message of a problem. -/
def Problem.message : Problem → String
  | .notIdentifier setting value =>
      "`" ++ setting.name ++ "` must be a plain identifier, got " ++ Text.quoted value
  | .blankPath original => "replacement for `" ++ original ++ "` has an empty import path"

/-- The problem of a setting that is no plain identifier. -/
def Setting.problem? (setting : Setting) (value : String) : Option Problem :=
  if Text.IsIdentifier value then none else some (.notIdentifier setting value)

/-- The first problem of a replacement. -/
def Replacement.problem? (r : Replacement) : Option Problem :=
  Setting.replace.problem? r.original
    <|> Setting.className.problem? r.className
    <|> if Text.IsBlank r.modulePath then some (.blankPath r.original) else none

end Rebind
