import Rebind.Json.Value

/-!
# Syntax trees

A tree keeps everything that its exchange form says, so that what the rewrite
does not touch comes back as it was. The parts of the language that the rewrite
looks into, or makes, have constructors of their own: identifiers, the keys and
values of object literals, arrays, calls, decorators and the classes that it
stops at. All the rest of the language is one constructor, `construct`, with the
name of its kind, its attributes, and its parts in the order in which they are
visited.
-/

namespace Rebind

/-- The place of a node in the source. -/
structure Span where
  start : Nat
  stop : Nat
deriving DecidableEq, Repr

/-- The place of nodes that come from nowhere in the source. -/
def Span.nowhere : Span := ⟨0, 0⟩

/-- An identifier that stands for a variable, with the hygiene context that tells it from others of
the same name. -/
structure Ident where
  span : Span
  context : Nat
  name : String
  isOptional : Bool
deriving DecidableEq, Repr

/-- Where a class stands that the walk stops at: in a declaration of its own, or as the class of an
`export default`. -/
inductive ClassForm where
  | declaration
  | defaultExport
deriving DecidableEq, Repr

/-- The fields of a node that hold no nodes. -/
abbrev Attributes := List (String × Json.Value)

/-- A number as an attribute. -/
def Json.Value.ofNat (n : Nat) : Json.Value :=
  .number (toString n)

/-- A span as an attribute. -/
def Span.toJson (s : Span) : Json.Value :=
  .object [("start", .ofNat s.start), ("end", .ofNat s.stop)]

/-- A node of a tree, or what may stand in the place of one. -/
inductive Node where
  /-- A value without nodes in it; above all the `null` of an absent node. -/
  | leaf (value : Json.Value)
  /-- The nodes of one part, in order. -/
  | list (items : List Node)
  /-- An identifier as an expression, or as a property that is its own value. -/
  | ident (id : Ident)
  /-- An identifier as the key of a property. -/
  | key (span : Span) (name : String)
  /-- A string literal, with the text between its quotes as it is written. -/
  | string (span : Span) (value : String) (raw : Option String)
  /-- An argument of a call or an element of an array. A spread one has the span of its dots. -/
  | argument (spread : Option Span) (expression : Node)
  | array (span : Span) (elements : List Node)
  | object (span : Span) (properties : List Node)
  /-- A property of an object literal with a key and a value. -/
  | keyValue (key value : Node)
  | call (span : Span) (context : Nat) (callee : Node) (arguments : List Node) (typeArguments : Node)
  | decorator (span : Span) (expression : Node)
  /-- A class declaration. -/
  | classDecl (form : ClassForm) (attributes : Attributes) (decorators : List Node)
      (parts : List (String × Node))
  /-- A node of any other kind. The function of a method has no kind. -/
  | construct (kind : Option String) (attributes : Attributes) (parts : List (String × Node))
deriving Inhabited

/-- The absent node. -/
def Node.absent : Node := .leaf .null

/-- What a program consists of: the statements of a script, or the items of a module. -/
structure Body where
  span : Span
  items : List Node
  /-- The interpreter that the first line of the file asks for. -/
  interpreter : Option String

/-- A program. Only a module can import. -/
inductive Program where
  | script (b : Body)
  | module (b : Body)

/-- What a program consists of, whichever kind it is. -/
def Program.body : Program → Body
  | .script b => b
  | .module b => b

/-- The name of the kind of a program. -/
def Program.kind : Program → String
  | .script _ => "Script"
  | .module _ => "Module"

end Rebind
