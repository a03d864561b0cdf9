import Rebind.Rewrite.Provider

/-!
# Decorators and their metadata

The metadata of a decorator is the object literal that it is called with. Its
lists of providers are taken out, rewritten, and put back as a single list at
the end; if they hold nothing, nothing is put back. A property is such a list
when its key is `providers` and its value an array literal: any other property
stays, whatever it is called.

A decorator is looked at when it is the call of a name that the options list. It
is noted if it has no or several arguments, or one that is no object literal; a
single spread argument says nothing about what it spreads and passes in silence.
-/

namespace Rebind

namespace Node

/-- Whether a property of metadata holds a list of providers. -/
def isProvidersArray : Node → Bool
  | .keyValue k value =>
      k.isKey "providers" &&
        match value with
        | .array .. => true
        | _ => false
  | _ => false

/-- The elements of the list of providers that a property of metadata holds. -/
def providers? : Node → Option (List Node)
  | .keyValue k value =>
      if k.isKey "providers" then
        match value with
        | .array _ elements => some elements
        | _ => none
      else none
  | _ => none

/-- The question and the access are about the same properties. -/
theorem isProvidersArray_eq (p : Node) : p.isProvidersArray = p.providers?.isSome := by
  cases p with
  | keyValue k value =>
      cases hkey : k.isKey "providers" with
      | false => simp [isProvidersArray, providers?, hkey]
      | true => cases value <;> simp [isProvidersArray, providers?, hkey]
  | _ => rfl

/-- The property that holds a list of providers. There is none for an empty list. -/
def providersProperty (elements : List Node) : List Node :=
  if elements.isEmpty then [] else [.madeProperty "providers" (.array .nowhere elements)]

end Node

namespace Options

/-- The properties of metadata that stay, and the elements of the lists that are taken out, rewritten
on the way. -/
def takeProviders (o : Options) : List Node → Noted (List Node × List Node)
  | [] => return ([], [])
  | p :: ps =>
      match p.providers? with
      | some elements => do
          let rewritten ← Noted.forEach o.rewriteProvider elements
          let (retained, providers) ← o.takeProviders ps
          return (retained, rewritten ++ providers)
      | none => do
          let (retained, providers) ← o.takeProviders ps
          return (p :: retained, providers)

/-- Rewrites the properties of metadata. -/
def rewriteMetadata (o : Options) (properties : List Node) : Noted (List Node) :=
  if properties.any (·.isProvidersArray) then do
    let (retained, providers) ← o.takeProviders properties
    return retained ++ Node.providersProperty providers
  else return properties

/-- Rewrites the arguments of a decorator. -/
def rewriteArguments (o : Options) : List Node → Noted (List Node)
  | [.argument none (.object span properties)] =>
      return [.argument none (.object span (← o.rewriteMetadata properties))]
  | [.argument none expression] => do
      Noted.note .notObject
      return [.argument none expression]
  | [argument] => return [argument]
  | arguments => do
      Noted.note (.argumentCount arguments.length)
      return arguments

/-- Rewrites a decorator. -/
def rewriteDecorator (o : Options) : Node → Noted Node
  | .decorator span (.call callSpan context (.ident name) arguments typeArguments) =>
      if o.recognises name.name then
        return .decorator span
          (.call callSpan context (.ident name) (← o.rewriteArguments arguments) typeArguments)
      else return .decorator span (.call callSpan context (.ident name) arguments typeArguments)
  | decorator => return decorator

end Options

end Rebind
