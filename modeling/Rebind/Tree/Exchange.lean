import Rebind.Tree.Node
import Rebind.Tree.Parts

/-!
# The exchange form of trees

Trees come in and go out as JSON. Every node is an object whose `type` names its
kind; arguments and the functions of methods have none. A node is read as one of
the constructors that the rewrite knows when it has exactly the fields of that
constructor, and as a `construct` otherwise, so no value is refused and none
loses anything. The class of an `export default` is told from other class
expressions by the node it stands in.
-/

namespace Rebind

open Json (Value)

/-! ## Reading -/

/-- A natural number. -/
def Json.Value.nat? : Value → Option Nat
  | .number numeral => numeral.toNat?
  | _ => none

/-- A string. -/
def Json.Value.string? : Value → Option String
  | .string s => some s
  | _ => none

/-- A truth value. -/
def Json.Value.bool? : Value → Option Bool
  | .bool b => some b
  | _ => none

/-- A value that may be absent. -/
def Json.Value.optional? {α : Type} (read : Value → Option α) : Value → Option (Option α)
  | .null => some none
  | v => (read v).map some

/-- A span. -/
def Span.ofJson? : Value → Option Span
  | .object [(a, v), (b, w)] =>
      match a, b with
      | "start", "end" => return ⟨← v.nat?, ← w.nat?⟩
      | "end", "start" => return ⟨← w.nat?, ← v.nat?⟩
      | _, _ => none
  | _ => none

namespace Tree

/-- An object that is being read: its members as they are, and as nodes. -/
structure Fields where
  values : List (String × Value)
  nodes : List (String × Node)

namespace Fields

/-- The value of a field, read as a scalar. -/
def scalar? {α : Type} (f : Fields) (read : Value → Option α) (name : String) : Option α :=
  f.values.lookup name >>= read

/-- The span of a node. -/
def span? (f : Fields) : Option Span :=
  f.scalar? Span.ofJson? "span"

/-- The node in a field. -/
def node? (f : Fields) (name : String) : Option Node :=
  f.nodes.lookup name

/-- The nodes in a field that holds several. -/
def nodes? (f : Fields) (name : String) : Option (List Node) :=
  match f.nodes.lookup name with
  | some (.list items) => some items
  | _ => none

/-- Demands that there are so many fields. -/
def count (f : Fields) (n : Nat) : Option Unit :=
  if f.values.length = n then some () else none

/-- The name of the kind, if there is one. -/
def kind? (f : Fields) : Option String :=
  f.scalar? Value.string? "type"

/-- The node with these fields, whatever its kind. -/
def construct (f : Fields) : Node :=
  let names := partNames f.kind?
  .construct f.kind?
    (f.values.filter fun m => m.1 ≠ "type" && !names.contains m.1)
    (names.filterMap fun name => (f.node? name).map (name, ·))

end Fields

/-- A class expression as a declaration of the given form. Other nodes stay. -/
def asClassDecl (form : ClassForm) : Node → Node
  | .construct (some kind) attributes parts =>
      match parts.lookup "decorators" with
      | some (.list decorators) =>
          if kind = "ClassDeclaration" ∨ kind = "ClassExpression" then
            .classDecl form attributes decorators (parts.filter (·.1 ≠ "decorators"))
          else .construct (some kind) attributes parts
      | _ => .construct (some kind) attributes parts
  | n => n

/-- The node with these fields, if it is one of those that have a constructor of their own. -/
def Fields.known? (f : Fields) : Option Node :=
  match f.kind? with
  | none => do
      f.count 2
      return .argument (← f.scalar? (Value.optional? Span.ofJson?) "spread") (← f.node? "expression")
  | some "Identifier" =>
      (do f.count 5
          return .ident ⟨← f.span?, ← f.scalar? Value.nat? "ctxt", ← f.scalar? Value.string? "value",
            ← f.scalar? Value.bool? "optional"⟩)
      <|> (do f.count 3
              return .key (← f.span?) (← f.scalar? Value.string? "value"))
  | some "StringLiteral" => do
      f.count 4
      return .string (← f.span?) (← f.scalar? Value.string? "value")
        (← f.scalar? (Value.optional? Value.string?) "raw")
  | some "ArrayExpression" => do
      f.count 3
      return .array (← f.span?) (← f.nodes? "elements")
  | some "ObjectExpression" => do
      f.count 3
      return .object (← f.span?) (← f.nodes? "properties")
  | some "KeyValueProperty" => do
      f.count 3
      return .keyValue (← f.node? "key") (← f.node? "value")
  | some "CallExpression" => do
      f.count 6
      return .call (← f.span?) (← f.scalar? Value.nat? "ctxt") (← f.node? "callee")
        (← f.nodes? "arguments") (← f.node? "typeArguments")
  | some "Decorator" => do
      f.count 3
      return .decorator (← f.span?) (← f.node? "expression")
  | some "ClassDeclaration" => some (asClassDecl .declaration f.construct)
  | some "ExportDefaultDeclaration" =>
      match f.construct with
      | .construct kind attributes [("decl", decl)] =>
          some (.construct kind attributes [("decl", asClassDecl .defaultExport decl)])
      | n => some n
  | _ => none

/-- The node with these fields. -/
def Fields.node (f : Fields) : Node :=
  f.known?.getD f.construct

end Tree

mutual

/-- The node that a value stands for. -/
def Node.ofJson : Value → Node
  | .array items => .list (nodesOfJson items)
  | .object members => Tree.Fields.node ⟨members, fieldsOfJson members⟩
  | v => .leaf v

/-- The nodes that the values of a list stand for. -/
def nodesOfJson : List Value → List Node
  | [] => []
  | v :: vs => Node.ofJson v :: nodesOfJson vs

/-- The nodes that the members of an object stand for. -/
def fieldsOfJson : List (String × Value) → List (String × Node)
  | [] => []
  | (name, v) :: ms => (name, Node.ofJson v) :: fieldsOfJson ms

end

/-- The node that the declaration of an `export default` stands for. -/
def Node.ofDefaultExport (v : Value) : Node :=
  Tree.asClassDecl .defaultExport (Node.ofJson v)

/-- The program that a value stands for, if it stands for one. -/
def Program.ofJson? : Value → Option Program
  | .object members => do
      let f : Tree.Fields := ⟨members, fieldsOfJson members⟩
      let body : Body := {
        span := ← f.span?
        items := ← f.nodes? "body"
        interpreter := ← f.scalar? (Value.optional? Value.string?) "interpreter" }
      match f.kind? with
      | some "Module" => some (.module body)
      | some "Script" => some (.script body)
      | _ => none
  | _ => none

/-! ## Writing -/

/-- A string that may be absent. -/
def Json.Value.ofString? : Option String → Value
  | none => .null
  | some s => .string s

/-- The exchange form of a span that may be absent. -/
def Span.optionalToJson : Option Span → Value
  | none => .null
  | some s => s.toJson

/-- The kind of node that a class declaration is. -/
def ClassForm.kind : ClassForm → String
  | .declaration => "ClassDeclaration"
  | .defaultExport => "ClassExpression"

/-- An object with this kind and these fields. -/
def Tree.typed (kind : String) (members : List (String × Value)) : Value :=
  .object (("type", .string kind) :: members)

mutual

/-- The exchange form of a node. -/
def Node.toJson : Node → Value
  | .leaf v => v
  | .list items => .array (nodesToJson items)
  | .ident i => Tree.typed "Identifier" [("span", i.span.toJson), ("ctxt", .ofNat i.context),
      ("value", .string i.name), ("optional", .bool i.isOptional)]
  | .key span name => Tree.typed "Identifier" [("span", span.toJson), ("value", .string name)]
  | .string span value raw => Tree.typed "StringLiteral" [("span", span.toJson),
      ("value", .string value), ("raw", .ofString? raw)]
  | .argument spread expression => .object [("spread", Span.optionalToJson spread),
      ("expression", expression.toJson)]
  | .array span elements => Tree.typed "ArrayExpression" [("span", span.toJson),
      ("elements", .array (nodesToJson elements))]
  | .object span properties => Tree.typed "ObjectExpression" [("span", span.toJson),
      ("properties", .array (nodesToJson properties))]
  | .keyValue k value => Tree.typed "KeyValueProperty" [("key", k.toJson),
      ("value", value.toJson)]
  | .call span context callee arguments typeArguments => Tree.typed "CallExpression"
      [("span", span.toJson), ("ctxt", .ofNat context), ("callee", callee.toJson),
       ("arguments", .array (nodesToJson arguments)), ("typeArguments", typeArguments.toJson)]
  | .decorator span expression => Tree.typed "Decorator" [("span", span.toJson),
      ("expression", expression.toJson)]
  | .classDecl form attributes decorators parts => Tree.typed form.kind (attributes
      ++ ("decorators", .array (nodesToJson decorators)) :: fieldsToJson parts)
  | .construct (some kind) attributes parts => Tree.typed kind (attributes ++ fieldsToJson parts)
  | .construct none attributes parts => .object (attributes ++ fieldsToJson parts)

/-- The exchange forms of the nodes of a list. -/
def nodesToJson : List Node → List Value
  | [] => []
  | n :: ns => n.toJson :: nodesToJson ns

/-- The exchange forms of the nodes in the fields of an object. -/
def fieldsToJson : List (String × Node) → List (String × Value)
  | [] => []
  | (name, n) :: ns => (name, n.toJson) :: fieldsToJson ns

end

/-- The exchange form of a program. -/
def Program.toJson (p : Program) : Value :=
  Tree.typed p.kind [("span", p.body.span.toJson), ("body", .array (nodesToJson p.body.items)),
    ("interpreter", .ofString? p.body.interpreter)]

end Rebind
