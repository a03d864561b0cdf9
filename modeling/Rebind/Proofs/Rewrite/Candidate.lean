import Rebind.Proofs.Tree.Outermost
import Rebind.Rewrite.Decorator

/-!
# The classes that are looked up

Which identifiers of a program are looked up in the table can be read off the
program, without rewriting anything. It takes the names of the decorators and
the two keys of a provider, and neither the table nor anything else of the
options: `Vocabulary` is these names, and the candidates are defined by them
alone, level by level from the elements of a list of providers up to the
program, and so is what an element looks like when a class has been put in.

The shapes that the rewrite looks for are described here as well, apart from
what it makes of them: the first property with a key, and a decorator that is
called with one object literal.
-/

namespace Rebind

/-- The names by which a rewrite finds the classes that it looks up. -/
structure Vocabulary where
  decorators : List String
  bindKey : String
  implementKey : String

/-- The names that the options give. -/
def Options.vocabulary (o : Options) : Vocabulary :=
  ⟨o.decorators, o.bindKey, o.implementKey⟩

/-! ## The property with the class -/

/-- Whether a node is a property with this key and a value of its own. -/
def Node.isKeyed (name : String) : Node → Bool
  | .keyValue k _ => k.isKey name
  | _ => false

/-- The property with another value. -/
def Node.withValue (value : Node) : Node → Node
  | .keyValue k _ => .keyValue k value
  | n => n

/-- The identifier under the first property with this key, if there is such a
property and an identifier is under it. -/
def Node.implementer? (name : String) (properties : List Node) : Option Ident :=
  match properties.find? (·.isKeyed name) with
  | some (.keyValue _ (.ident i)) => some i
  | _ => none

/-- The properties with this identifier under the first one with this key. -/
def Node.setImplementer (name : String) (i : Ident) (properties : List Node) : List Node :=
  properties.modify (properties.findIdx (·.isKeyed name)) (Node.withValue (.ident i))

theorem Node.implementer?_split {name : String} {before after : List Node} {k : Node}
    {i : Ident} (hbefore : ∀ p ∈ before, p.isKeyed name = false)
    (hk : k.isKey name = true) :
    implementer? name (before ++ .keyValue k (.ident i) :: after) = some i := by
  have hfind : (before ++ Node.keyValue k (.ident i) :: after).find? (·.isKeyed name) =
      some (.keyValue k (.ident i)) := by
    rw [List.find?_eq_some_iff_append]
    exact ⟨hk, before, after, rfl, fun p hp => by rw [hbefore p hp]; rfl⟩
  rw [implementer?, hfind]

theorem Node.setImplementer_split {name : String} {before after : List Node} {k value : Node}
    (hbefore : ∀ p ∈ before, p.isKeyed name = false) (hk : k.isKey name = true) (i : Ident) :
    setImplementer name i (before ++ .keyValue k value :: after) =
      before ++ .keyValue k (.ident i) :: after := by
  rw [setImplementer]
  induction before with
  | nil =>
      rw [List.nil_append, List.findIdx_cons, isKeyed, hk]
      rfl
  | cons p before ih =>
      rw [List.cons_append, List.findIdx_cons, hbefore p List.mem_cons_self]
      exact congrArg (p :: ·) (ih fun q hq => hbefore q (List.mem_cons_of_mem p hq))

theorem Node.exists_split_of_implementer? {name : String} {properties : List Node} {i : Ident}
    (h : implementer? name properties = some i) :
    ∃ before k after, properties = before ++ .keyValue k (.ident i) :: after ∧
      (∀ p ∈ before, p.isKeyed name = false) ∧ k.isKey name = true := by
  rw [implementer?] at h
  split at h
  · next k j hfind =>
      obtain ⟨hk, before, after, heq, hbefore⟩ := List.find?_eq_some_iff_append.mp hfind
      rw [Option.some.injEq] at h
      subst h
      exact ⟨before, k, after, heq, fun p hp => by simpa using hbefore p hp, hk⟩
  · cases h

/-! ## The metadata of a decorator -/

/-- All that a decorator with metadata has besides the properties of the
metadata. -/
structure MetadataFrame where
  span : Span
  callSpan : Span
  context : Nat
  callee : Ident
  objectSpan : Span
  typeArguments : Node

/-- The decorator with these properties in its metadata. -/
def MetadataFrame.fill (f : MetadataFrame) (properties : List Node) : Node :=
  .decorator f.span (.call f.callSpan f.context (.ident f.callee)
    [.argument none (.object f.objectSpan properties)] f.typeArguments)

/-- The properties of the metadata of a decorator, and all the rest of it. Only
the call of one of the names with a single object literal has metadata. -/
def Node.metadata? (names : List String) : Node → Option (MetadataFrame × List Node)
  | .decorator span (.call callSpan context (.ident callee)
      [.argument none (.object objectSpan properties)] typeArguments) =>
        if names.contains callee.name then
          some (⟨span, callSpan, context, callee, objectSpan, typeArguments⟩, properties)
        else none
  | _ => none

theorem Node.eq_fill_of_metadata? {names : List String} {d : Node} {f : MetadataFrame}
    {properties : List Node} (h : d.metadata? names = some (f, properties)) :
    d = f.fill properties ∧ names.contains f.callee.name = true := by
  rw [metadata?.eq_def] at h
  split at h
  · split at h
    · next hname =>
        rw [Option.some.injEq, Prod.mk.injEq] at h
        obtain ⟨rfl, rfl⟩ := h
        exact ⟨rfl, hname⟩
    · cases h
  · cases h

theorem MetadataFrame.metadata?_fill {names : List String} {f : MetadataFrame}
    (hname : names.contains f.callee.name = true) (properties : List Node) :
    (f.fill properties).metadata? names = some (f, properties) := by
  rw [fill, Node.metadata?, if_pos hname]

/-- The elements of all lists of providers among the properties of metadata. -/
def Node.providerElements (properties : List Node) : List Node :=
  properties.flatMap fun p => p.providers?.getD []

/-! ## Candidates -/

namespace Vocabulary

/-- The elements of the lists of providers of a decorator. -/
def ofDecorator (v : Vocabulary) (d : Node) : List Node :=
  match d.metadata? v.decorators with
  | some (_, properties) => Node.providerElements properties
  | none => []

/-- The elements of the lists of providers of a tree: those in the decorators of
its outermost class declarations. -/
def ofTree (v : Vocabulary) (t : Node) : List Node :=
  t.classes.flatMap fun c => c.decorators.flatMap v.ofDecorator

/-- The elements of the lists of providers of a program, in the order of the
walk. -/
def elements (v : Vocabulary) (p : Program) : List Node :=
  p.body.items.flatMap v.ofTree

/-- The class that an element of a list of providers is looked up for. In the
short form it is the element. In the long form it is under the first property
with the key for it, and counts if there is a property for the token too. -/
def candidate? (v : Vocabulary) : Node → Option Ident
  | .argument none (.ident token) => some token
  | .argument none (.object _ properties) =>
      if properties.any (·.isProperty v.bindKey) then
        Node.implementer? v.implementKey properties
      else none
  | _ => none

/-- The candidates of a program, in the order of the walk. -/
def candidates (v : Vocabulary) (p : Program) : List Ident :=
  (v.elements p).filterMap v.candidate?

/-- The long form of an element, with this class in it. -/
def bound (v : Vocabulary) (e : Node) (i : Ident) : Node :=
  match e with
  | .argument none (.ident token) =>
      .argument none (.object .nowhere
        [.madeProperty v.bindKey (.ident token), .madeProperty v.implementKey (.ident i)])
  | .argument none (.object span properties) =>
      .argument none (.object span (Node.setImplementer v.implementKey i properties))
  | e => e

end Vocabulary

end Rebind
