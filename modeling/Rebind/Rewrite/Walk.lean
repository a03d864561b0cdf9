import Rebind.Rewrite.Decorator

/-!
# The walk

The walk goes through a tree in the order of its parts until it comes to a class
declaration, be it a statement or the class of an `export default`. There it
rewrites the decorators, and goes no further: what stands inside the class is
left as it is. A class expression is a node like any other, so its decorators
are walked and not rewritten, and a class declaration inside it is reached.
-/

namespace Rebind

mutual

/-- Rewrites the class declarations of a tree. -/
def Node.rewrite (o : Options) : Node → Noted Node
  | .leaf v => return .leaf v
  | .list items => return .list (← rewriteNodes o items)
  | .ident i => return .ident i
  | .key span name => return .key span name
  | .string span value raw => return .string span value raw
  | .argument spread expression => return .argument spread (← expression.rewrite o)
  | .array span elements => return .array span (← rewriteNodes o elements)
  | .object span properties => return .object span (← rewriteNodes o properties)
  | .keyValue k value => do
      let k' ← k.rewrite o
      let value' ← value.rewrite o
      return .keyValue k' value'
  | .call span context callee arguments typeArguments => do
      let callee' ← callee.rewrite o
      let arguments' ← rewriteNodes o arguments
      let typeArguments' ← typeArguments.rewrite o
      return .call span context callee' arguments' typeArguments'
  | .decorator span expression => return .decorator span (← expression.rewrite o)
  | .classDecl form attributes decorators parts =>
      return .classDecl form attributes (← Noted.forEach o.rewriteDecorator decorators) parts
  | .construct kind attributes parts => return .construct kind attributes (← rewriteParts o parts)

/-- Rewrites the class declarations of several trees, front to back. -/
def rewriteNodes (o : Options) : List Node → Noted (List Node)
  | [] => return []
  | n :: ns => do
      let n' ← n.rewrite o
      let ns' ← rewriteNodes o ns
      return n' :: ns'

/-- Rewrites the class declarations in the parts of a node, front to back. -/
def rewriteParts (o : Options) : List (String × Node) → Noted (List (String × Node))
  | [] => return []
  | (name, n) :: ns => do
      let n' ← n.rewrite o
      let ns' ← rewriteParts o ns
      return (name, n') :: ns'

end

end Rebind
