import Rebind.Tree.Node

/-!
# Nodes and the nodes right inside them

A tree has a dozen kinds of nodes, and what is said about the walk is nearly
always said about two of them: class declarations, and all the rest. The view of
this module makes that possible. A node is its shell, which is everything that
is not a node, and its children, which are the nodes right inside it in the
order in which they are visited. The two determine it, so an induction over a
tree needs one case and not one for each kind.
-/

namespace Rebind

namespace Node

/-- The nodes right inside a node, in the order in which they are visited. The
decorators of a class declaration come before its other parts. -/
def children : Node → List Node
  | .leaf _ | .ident _ | .key .. | .string .. => []
  | .list items => items
  | .argument _ expression => [expression]
  | .array _ elements => elements
  | .object _ properties => properties
  | .keyValue k value => [k, value]
  | .call _ _ callee arguments typeArguments =>
      callee :: (arguments ++ [typeArguments])
  | .decorator _ expression => [expression]
  | .classDecl _ _ decorators parts => decorators ++ parts.map (·.2)
  | .construct _ _ parts => parts.map (·.2)

/-- The node with something else in the place of each of its children. -/
def mapChildren (f : Node → Node) : Node → Node
  | .leaf v => .leaf v
  | .ident i => .ident i
  | .key span name => .key span name
  | .string span value raw => .string span value raw
  | .list items => .list (items.map f)
  | .argument spread expression => .argument spread (f expression)
  | .array span elements => .array span (elements.map f)
  | .object span properties => .object span (properties.map f)
  | .keyValue k value => .keyValue (f k) (f value)
  | .call span context callee arguments typeArguments =>
      .call span context (f callee) (arguments.map f) (f typeArguments)
  | .decorator span expression => .decorator span (f expression)
  | .classDecl form attributes decorators parts =>
      .classDecl form attributes (decorators.map f) (parts.map fun p => (p.1, f p.2))
  | .construct kind attributes parts =>
      .construct kind attributes (parts.map fun p => (p.1, f p.2))

/-- What a node is apart from the nodes in it: its kind, its attributes, and how
many nodes it has in which of its parts. -/
def shell (n : Node) : Node :=
  n.mapChildren fun _ => .absent

@[simp] theorem children_mapChildren (f : Node → Node) (n : Node) :
    (n.mapChildren f).children = n.children.map f := by
  cases n <;> simp [children, mapChildren, Function.comp_def]

theorem mapChildren_mapChildren (f g : Node → Node) (n : Node) :
    (n.mapChildren f).mapChildren g = n.mapChildren fun c => g (f c) := by
  cases n <;> simp [mapChildren, Function.comp_def]

@[simp] theorem shell_mapChildren (f : Node → Node) (n : Node) :
    (n.mapChildren f).shell = n.shell := by
  rw [shell, shell, mapChildren_mapChildren]

theorem length_children_of_shell {n m : Node} (h : n.shell = m.shell) :
    n.children.length = m.children.length := by
  have hc := congrArg (fun k : Node => k.children.length) h
  simpa [shell] using hc

theorem parts_eq_of_shells {ps qs : List (String × Node)}
    (hs : ps.map (fun p => (p.1, Node.absent)) = qs.map fun p => (p.1, Node.absent))
    (hc : ps.map (·.2) = qs.map (·.2)) : ps = qs := by
  have hnames := congrArg (List.map Prod.fst) hs
  simp only [List.map_map, Function.comp_def] at hnames
  rw [← List.zip_unzip ps, ← List.zip_unzip qs, List.unzip_eq_map, List.unzip_eq_map]
  rw [hnames, hc]

/-- A node is its shell and its children. -/
theorem eq_of_shell_of_children {n m : Node} (hs : n.shell = m.shell)
    (hc : n.children = m.children) : n = m := by
  cases n with
  | call span context callee arguments typeArguments =>
      cases m <;> simp only [shell, mapChildren, reduceCtorEq] at hs
      injection hs with hspan hcontext
      rw [children, children, List.cons.injEq] at hc
      obtain ⟨harguments, htype⟩ := List.append_inj' hc.2 rfl
      rw [hspan, hcontext, hc.1, harguments, List.singleton_inj.mp htype]
  | classDecl form attributes decorators parts =>
      cases m <;> simp only [shell, mapChildren, reduceCtorEq] at hs
      injection hs with hform hattributes hdecorators hparts
      have hlength := congrArg List.length hdecorators
      rw [List.length_map, List.length_map] at hlength
      obtain ⟨hd, hp⟩ := List.append_inj hc hlength
      rw [hform, hattributes, hd, parts_eq_of_shells hparts hp]
  | construct kind attributes parts =>
      cases m <;> simp only [shell, mapChildren, reduceCtorEq] at hs
      injection hs with hkind hattributes hparts
      rw [hkind, hattributes, parts_eq_of_shells hparts hc]
  | _ => cases m <;> simp_all [shell, mapChildren, children]

/-! ## Going down

A child is smaller than its node. The induction that this gives has one case,
and the recursive definitions that follow a tree through its children rest on
the same fact. -/

theorem sizeOf_lt_of_mem_children {n c : Node} (h : c ∈ n.children) :
    sizeOf c < sizeOf n := by
  have parts_lt : ∀ parts : List (String × Node), c ∈ parts.map (·.2) →
      sizeOf c < sizeOf parts := by
    intro parts hp
    obtain ⟨p, hmem, rfl⟩ := List.mem_map.mp hp
    have hlt := List.sizeOf_lt_of_mem hmem
    cases p
    simp only [Prod.mk.sizeOf_spec] at hlt ⊢
    omega
  cases n with
  | leaf | ident | key | string => simp [children] at h
  | list items | array _ items | object _ items =>
      rw [children] at h
      have hlt := List.sizeOf_lt_of_mem h
      simp only [list.sizeOf_spec, array.sizeOf_spec, object.sizeOf_spec]
      omega
  | argument _ expression | decorator _ expression =>
      rw [children, List.mem_singleton] at h
      subst h
      simp only [argument.sizeOf_spec, decorator.sizeOf_spec]
      omega
  | keyValue k value =>
      simp only [children, List.mem_cons, List.not_mem_nil, or_false] at h
      rcases h with rfl | rfl <;> simp only [keyValue.sizeOf_spec] <;> omega
  | call span context callee arguments typeArguments =>
      simp only [children, List.mem_cons, List.mem_append, List.not_mem_nil, or_false] at h
      rw [call.sizeOf_spec]
      rcases h with rfl | h | rfl
      · omega
      · have hlt := List.sizeOf_lt_of_mem h
        omega
      · omega
  | classDecl form attributes decorators parts =>
      rw [classDecl.sizeOf_spec]
      rcases List.mem_append.mp h with h | h
      · have hlt := List.sizeOf_lt_of_mem h
        omega
      · have hlt := parts_lt parts h
        omega
  | construct kind attributes parts =>
      have hlt := parts_lt parts h
      rw [construct.sizeOf_spec]
      omega

/-- What holds of a node when it holds of its children holds of every node. -/
theorem induction_on_children {motive : Node → Prop}
    (step : ∀ n, (∀ c ∈ n.children, motive c) → motive n) (n : Node) : motive n :=
  step n fun c _ => induction_on_children step c
termination_by sizeOf n
decreasing_by
  exact sizeOf_lt_of_mem_children ‹_›

end Node
end Rebind
