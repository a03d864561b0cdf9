import Rebind.Proofs.Tree.Children

/-!
# Places, and the outermost class declarations

A place is the way from the root of a tree to one of its nodes. It is exposed
when no class declaration stands on the way, and a class declaration at an
exposed place is an outermost one. `classes` lists these in the order of the
walk; `mem_classes_iff` says that the list and the places mean the same.
-/

namespace Rebind.Node

/-- Whether a node is a class declaration. -/
def isClassDecl : Node → Bool
  | .classDecl .. => true
  | _ => false

/-- The decorators of a class declaration. -/
def decorators : Node → List Node
  | .classDecl _ _ decorators _ => decorators
  | _ => []

/-- A class declaration with something else in the place of each of its
decorators. -/
def mapDecorators (f : Node → Node) : Node → Node
  | .classDecl form attributes decorators parts =>
      .classDecl form attributes (decorators.map f) parts
  | n => n

theorem isClassDecl_shell (n : Node) : n.shell.isClassDecl = n.isClassDecl := by
  cases n <;> rfl

theorem isClassDecl_eq_of_shell {n m : Node} (h : n.shell = m.shell) :
    n.isClassDecl = m.isClassDecl := by
  rw [← isClassDecl_shell n, h, isClassDecl_shell]

@[simp] theorem shell_mapDecorators (f : Node → Node) (n : Node) :
    (n.mapDecorators f).shell = n.shell := by
  cases n with
  | classDecl form attributes decorators parts =>
      rw [mapDecorators, shell, shell, mapChildren, mapChildren, List.map_map]
      rfl
  | _ => rfl

@[simp] theorem isClassDecl_mapDecorators (f : Node → Node) (n : Node) :
    (n.mapDecorators f).isClassDecl = n.isClassDecl :=
  isClassDecl_eq_of_shell (shell_mapDecorators f n)

@[simp] theorem decorators_mapDecorators (f : Node → Node) (n : Node) :
    (n.mapDecorators f).decorators = n.decorators.map f := by
  cases n <;> rfl

theorem mapDecorators_mapDecorators (f g : Node → Node) (n : Node) :
    (n.mapDecorators f).mapDecorators g = n.mapDecorators fun d => g (f d) := by
  cases n <;> simp [mapDecorators, Function.comp_def]

theorem mapDecorators_congr {f g : Node → Node} {n : Node}
    (h : ∀ d ∈ n.decorators, f d = g d) : n.mapDecorators f = n.mapDecorators g := by
  cases n with
  | classDecl form attributes decorators parts =>
      rw [Node.decorators] at h
      rw [mapDecorators, mapDecorators, List.map_congr_left h]
  | _ => rfl

@[simp] theorem mapDecorators_id (n : Node) : n.mapDecorators (fun d => d) = n := by
  cases n <;> simp [mapDecorators]

/-! ## Places -/

/-- The node at a place, if there is one. A place says at each node on the way,
beginning at the root, at which of its children the way goes on. -/
def at? (t : Node) : List Nat → Option Node
  | [] => some t
  | i :: place => t.children[i]?.bind (·.at? place)

/-- No class declaration stands on the way to a place. -/
def Exposed (t : Node) (place : List Nat) : Prop :=
  ∀ above c, above <+: place → above ≠ place → t.at? above = some c →
    c.isClassDecl = false

theorem at?_cons_of_getElem? {t c : Node} {i : Nat} (h : t.children[i]? = some c)
    (place : List Nat) : t.at? (i :: place) = c.at? place := by
  rw [at?, h, Option.bind_some]

theorem at?_cons_of_none {t : Node} {i : Nat} (h : t.children[i]? = none)
    (place : List Nat) : t.at? (i :: place) = none := by
  rw [at?, h, Option.bind_none]

theorem exposed_nil (t : Node) : t.Exposed [] := by
  intro above c hinit hne _
  exact absurd (List.prefix_nil.mp hinit) hne

theorem Exposed.of_above {t : Node} {above place : List Nat} (h : t.Exposed place)
    (hinit : above <+: place) : t.Exposed above := by
  intro higher c hhigher hne hc
  refine h higher c (hhigher.trans hinit) ?_ hc
  intro heq
  subst heq
  exact hne (hhigher.eq_of_length_le hinit.length_le)

theorem Exposed.root {t : Node} {i : Nat} {place : List Nat}
    (h : t.Exposed (i :: place)) : t.isClassDecl = false :=
  h [] t List.nil_prefix (by simp) rfl

theorem Exposed.child {t c : Node} {i : Nat} {place : List Nat}
    (h : t.Exposed (i :: place)) (hc : t.children[i]? = some c) : c.Exposed place := by
  intro above d hinit hne hd
  refine h (i :: above) d (List.cons_prefix_cons.mpr ⟨rfl, hinit⟩) ?_ ?_
  · intro heq
    exact hne (List.cons.inj heq).2
  · rw [at?_cons_of_getElem? hc, hd]

theorem exposed_cons {t c : Node} {i : Nat} {place : List Nat}
    (ht : t.isClassDecl = false) (hc : t.children[i]? = some c)
    (h : c.Exposed place) : t.Exposed (i :: place) := by
  intro above d hinit hne hd
  cases above with
  | nil =>
      rw [at?, Option.some.injEq] at hd
      exact hd ▸ ht
  | cons j above =>
      obtain ⟨rfl, habove⟩ := List.cons_prefix_cons.mp hinit
      rw [at?_cons_of_getElem? hc] at hd
      exact h above d habove (fun heq => hne (by rw [heq])) hd

/-! ## The list of them -/

/-- The outermost class declarations of a tree, in the order of the walk. -/
def classes (t : Node) : List Node :=
  if t.isClassDecl then [t] else t.children.attach.flatMap fun c => c.1.classes
termination_by sizeOf t
decreasing_by exact sizeOf_lt_of_mem_children c.2

theorem classes_of_class {t : Node} (h : t.isClassDecl = true) : t.classes = [t] := by
  rw [classes, if_pos h]

theorem classes_of_not_class {t : Node} (h : t.isClassDecl = false) :
    t.classes = t.children.flatMap classes := by
  rw [classes, if_neg (by rw [h]; exact Bool.false_ne_true)]
  rw [List.flatMap_subtype (g := classes) fun _ _ => rfl, List.unattach_attach]

section Kinds

@[simp] theorem classes_leaf (v : Json.Value) : (leaf v).classes = [] := by
  rw [classes_of_not_class rfl, children, List.flatMap_nil]

@[simp] theorem classes_ident (i : Ident) : (ident i).classes = [] := by
  rw [classes_of_not_class rfl, children, List.flatMap_nil]

@[simp] theorem classes_key (span : Span) (name : String) : (key span name).classes = [] := by
  rw [classes_of_not_class rfl, children, List.flatMap_nil]

@[simp] theorem classes_string (span : Span) (value : String) (raw : Option String) :
    (string span value raw).classes = [] := by
  rw [classes_of_not_class rfl, children, List.flatMap_nil]

@[simp] theorem classes_list (items : List Node) :
    (list items).classes = items.flatMap classes := by
  rw [classes_of_not_class rfl, children]

@[simp] theorem classes_argument (spread : Option Span) (expression : Node) :
    (argument spread expression).classes = expression.classes := by
  rw [classes_of_not_class rfl, children, List.flatMap_singleton]

@[simp] theorem classes_array (span : Span) (elements : List Node) :
    (array span elements).classes = elements.flatMap classes := by
  rw [classes_of_not_class rfl, children]

@[simp] theorem classes_object (span : Span) (properties : List Node) :
    (object span properties).classes = properties.flatMap classes := by
  rw [classes_of_not_class rfl, children]

@[simp] theorem classes_keyValue (k value : Node) :
    (keyValue k value).classes = k.classes ++ value.classes := by
  rw [classes_of_not_class rfl, children, List.flatMap_cons, List.flatMap_singleton]

@[simp] theorem classes_call (span : Span) (context : Nat) (callee : Node)
    (arguments : List Node) (typeArguments : Node) :
    (call span context callee arguments typeArguments).classes =
      callee.classes ++ (arguments.flatMap classes ++ typeArguments.classes) := by
  rw [classes_of_not_class rfl, children, List.flatMap_cons, List.flatMap_append,
    List.flatMap_singleton]

@[simp] theorem classes_decorator (span : Span) (expression : Node) :
    (decorator span expression).classes = expression.classes := by
  rw [classes_of_not_class rfl, children, List.flatMap_singleton]

@[simp] theorem classes_construct (kind : Option String) (attributes : Attributes)
    (parts : List (String × Node)) :
    (construct kind attributes parts).classes = parts.flatMap fun p => p.2.classes := by
  rw [classes_of_not_class rfl, children, List.flatMap_map]

end Kinds

/-- The classes in the list are the class declarations at the exposed places. -/
theorem mem_classes_iff {t c : Node} :
    c ∈ t.classes ↔
      c.isClassDecl = true ∧ ∃ place, t.Exposed place ∧ t.at? place = some c := by
  induction t using induction_on_children with
  | step t ih =>
    cases ht : t.isClassDecl with
    | true =>
        rw [classes_of_class ht, List.mem_singleton]
        constructor
        · rintro rfl
          exact ⟨ht, [], exposed_nil c, rfl⟩
        · rintro ⟨-, place, hexposed, hc⟩
          cases place with
          | nil => exact (Option.some.inj hc).symm
          | cons i place => exact absurd hexposed.root (by simp [ht])
    | false =>
        rw [classes_of_not_class ht, List.mem_flatMap]
        constructor
        · rintro ⟨child, hchild, hc⟩
          obtain ⟨hclass, place, hexposed, hat⟩ := (ih child hchild).mp hc
          obtain ⟨i, hi⟩ := List.mem_iff_getElem?.mp hchild
          exact ⟨hclass, i :: place, exposed_cons ht hi hexposed,
            (at?_cons_of_getElem? hi place).trans hat⟩
        · rintro ⟨hclass, place, hexposed, hat⟩
          cases place with
          | nil =>
              rw [at?, Option.some.injEq] at hat
              exact absurd hclass (by simp [← hat, ht])
          | cons i place =>
              cases hi : t.children[i]? with
              | none => rw [at?_cons_of_none hi] at hat; cases hat
              | some child =>
                  rw [at?_cons_of_getElem? hi] at hat
                  have hchild := List.mem_of_getElem? hi
                  exact ⟨child, hchild,
                    (ih child hchild).mpr ⟨hclass, place, hexposed.child hi, hat⟩⟩

end Rebind.Node
