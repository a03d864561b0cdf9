import Rebind.Rewrite.Provider

/-!
# Substitutions and imports

A class that takes the place of another leaves two things behind. The one is a
substitution, the record of the class that was replaced in one file: it has a
line for people, and a record for programs, a JSON object in compact form. The
other is an import of the new class under its own name, from the module that
exports it.
-/

namespace Rebind

/-! ## Substitutions -/

/-- One class replaced in one file. -/
structure Substitution where
  file : String
  original : String
  className : String
  modulePath : String
deriving DecidableEq, Repr

/-- The substitution that uses a replacement in a file. -/
def Replacement.substitution (r : Replacement) (file : String) : Substitution :=
  ⟨file, r.original, r.className, r.modulePath⟩

namespace Substitution

/-- The line for people. -/
def display (s : Substitution) : String :=
  "Applying custom layer on file " ++ s.file ++ " replace " ++ s.original ++ " -> " ++ s.className

/-- The object for programs. -/
def toJson (s : Substitution) : Json.Value :=
  .object [("file", .string s.file), ("original", .string s.original),
    ("replacement", .string s.className), ("module_path", .string s.modulePath)]

/-- The record for programs. -/
def record (s : Substitution) : String :=
  s.toJson.render

end Substitution

/-! ## Imports -/

/-- A class that is imported, and the path of the module it comes from. -/
structure Import where
  className : String
  modulePath : String
deriving DecidableEq, Repr

/-- The import that a replacement needs. -/
def Replacement.import (r : Replacement) : Import :=
  ⟨r.className, r.modulePath⟩

/-- The declaration of an import. -/
def Import.declaration (i : Import) : Node :=
  let specifier : Node :=
    .construct (some "ImportSpecifier") [("span", Span.nowhere.toJson), ("isTypeOnly", .bool false)]
      [("local", .ident (.made i.className)), ("imported", .absent)]
  .construct (some "ImportDeclaration")
    [("span", Span.nowhere.toJson), ("typeOnly", .bool false), ("phase", .string "evaluation")]
    [("specifiers", .list [specifier]), ("source", .string .nowhere i.modulePath none),
     ("with", .absent)]

end Rebind
