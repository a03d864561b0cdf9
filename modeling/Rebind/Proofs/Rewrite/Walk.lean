import Rebind.Proofs.Tree.Redecorated
import Rebind.Rewrite.Walk

/-!
# What the walk does to a tree

The walk is defined kind by kind. Two facts replace its definition from here on:
at a class declaration it rewrites the decorators, and at any other node it
walks the children in order. The tree that comes out has the decorators of the
outermost class declarations replaced and nothing else changed, and the notes
are those taken at these decorators, in their order.
-/

namespace Rebind

/-- What a decorator of an outermost class declaration becomes. -/
def Options.image (o : Options) (d : Node) : Node :=
  (o.rewriteDecorator d).value

/-! ## Lists of trees -/

theorem value_rewriteNodes (o : Options) (ns : List Node) :
    (rewriteNodes o ns).value = ns.map fun n => (n.rewrite o).value := by
  induction ns with
  | nil => rfl
  | cons n ns ih => simp [rewriteNodes, ih]

theorem notes_rewriteNodes (o : Options) (ns : List Node) :
    (rewriteNodes o ns).notes = ns.flatMap fun n => (n.rewrite o).notes := by
  induction ns with
  | nil => rfl
  | cons n ns ih => simp [rewriteNodes, ih]

theorem value_rewriteParts (o : Options) (parts : List (String × Node)) :
    (rewriteParts o parts).value = parts.map fun p => (p.1, (p.2.rewrite o).value) := by
  induction parts with
  | nil => rfl
  | cons p parts ih => simp [rewriteParts, ih]

theorem notes_rewriteParts (o : Options) (parts : List (String × Node)) :
    (rewriteParts o parts).notes = (parts.map (·.2)).flatMap fun n => (n.rewrite o).notes := by
  induction parts with
  | nil => rfl
  | cons p parts ih => simp [rewriteParts, ih]

namespace Node

/-! ## One level -/

theorem value_rewrite_of_class (o : Options) {n : Node} (h : n.isClassDecl = true) :
    (n.rewrite o).value = n.mapDecorators o.image := by
  cases n with
  | classDecl form attributes decorators parts => simp [rewrite, mapDecorators, Options.image]
  | _ => cases h

theorem notes_rewrite_of_class (o : Options) {n : Node} (h : n.isClassDecl = true) :
    (n.rewrite o).notes = n.decorators.flatMap fun d => (o.rewriteDecorator d).notes := by
  cases n with
  | classDecl form attributes decorators parts => simp [rewrite, Node.decorators]
  | _ => cases h

theorem value_rewrite_of_not_class (o : Options) {n : Node} (h : n.isClassDecl = false) :
    (n.rewrite o).value = n.mapChildren fun c => (c.rewrite o).value := by
  cases n with
  | classDecl => cases h
  | _ => simp [rewrite, mapChildren, value_rewriteNodes, value_rewriteParts]

theorem notes_rewrite_of_not_class (o : Options) {n : Node} (h : n.isClassDecl = false) :
    (n.rewrite o).notes = n.children.flatMap fun c => (c.rewrite o).notes := by
  cases n with
  | classDecl => cases h
  | _ => simp [rewrite, children, notes_rewriteNodes, notes_rewriteParts]

/-! ## Whole trees -/

/-- The walk replaces the decorators of the outermost class declarations by
their images, and changes nothing else. -/
theorem redecorated_rewrite (o : Options) (n : Node) :
    Redecorated o.image n (n.rewrite o).value := by
  induction n using induction_on_children with
  | step n ih =>
    cases hn : n.isClassDecl with
    | true =>
        rw [value_rewrite_of_class o hn]
        exact Redecorated.of_class hn
    | false =>
        rw [value_rewrite_of_not_class o hn]
        exact Redecorated.of_children hn ih

/-- The walk takes note of what there is to say about these decorators, in the
order of the classes and of the decorators of each. -/
theorem notes_rewrite (o : Options) (n : Node) :
    (n.rewrite o).notes =
      n.classes.flatMap fun c => c.decorators.flatMap fun d => (o.rewriteDecorator d).notes := by
  induction n using induction_on_children with
  | step n ih =>
    cases hn : n.isClassDecl with
    | true =>
        rw [notes_rewrite_of_class o hn, classes_of_class hn, List.flatMap_singleton]
    | false =>
        rw [notes_rewrite_of_not_class o hn, classes_of_not_class hn, List.flatMap_assoc,
          List.flatMap_def, List.flatMap_def, List.map_congr_left ih]

theorem value_rewrite_eq_self {o : Options} {n : Node}
    (h : ∀ c ∈ n.classes, ∀ d ∈ c.decorators, o.image d = d) : (n.rewrite o).value = n :=
  ((redecorated_rewrite o n).congr h).unique (Redecorated.refl n)

end Node

end Rebind
