import Rebind.Rewrite.Note
import Rebind.Tree.Node

/-!
# Providers

An element of a list of providers binds a token to the class that implements it.
In the short form it is an identifier, which is both; it is written out in full.
In the long form it is an object literal with a property for the token and one
for the class, and only the class is replaced. Whatever else stands in the list
stays: spread elements, holes, and elements of any other form.
-/

namespace Rebind

/-- An identifier that comes from nowhere in the source. -/
def Ident.made (name : String) : Ident :=
  ⟨.nowhere, 0, name, false⟩

namespace Node

/-- Whether a node is a key with this name: an identifier, or a string literal with this value. -/
def isKey (name : String) : Node → Bool
  | .key _ n => n == name
  | .string _ value _ => value == name
  | _ => false

/-- Whether a node is a property with this name, with a value of its own or without. -/
def isProperty (name : String) : Node → Bool
  | .keyValue k _ => k.isKey name
  | .ident i => i.name == name
  | _ => false

/-- A property that comes from nowhere in the source. -/
def madeProperty (name : String) (value : Node) : Node :=
  .keyValue (.key .nowhere name) value

end Node

namespace Options

/-- The class that implements what is bound to a class: the one that replaces it, if the table has
one, and the class itself otherwise. -/
def implementation (o : Options) (implementer : Ident) : Noted Ident :=
  match o.table.find? implementer.name with
  | none => return implementer
  | some r => do
      Noted.note (.substituted r)
      return .made r.className

/-- The long form of a provider. -/
def provider (o : Options) (token implementer : Ident) : Node :=
  .object .nowhere [.madeProperty o.bindKey (.ident token), .madeProperty o.implementKey (.ident implementer)]

/-- Replaces the class in the properties of a provider. It stands under the first property with the
key for it, and only an identifier there is a class. -/
def replaceClass (o : Options) : List Node → Noted (List Node)
  | [] => return []
  | .keyValue k value :: properties =>
      if k.isKey o.implementKey then
        match value with
        | .ident implementer => return .keyValue k (.ident (← o.implementation implementer)) :: properties
        | _ => return .keyValue k value :: properties
      else return .keyValue k value :: (← o.replaceClass properties)
  | property :: properties => return property :: (← o.replaceClass properties)

/-- Rewrites an element of a list of providers. -/
def rewriteProvider (o : Options) : Node → Noted Node
  | .argument none (.ident token) =>
      return .argument none (o.provider token (← o.implementation token))
  | .argument none (.object span properties) =>
      if properties.any (·.isProperty o.bindKey) then
        return .argument none (.object span (← o.replaceClass properties))
      else return .argument none (.object span properties)
  | element => return element

end Options

end Rebind
