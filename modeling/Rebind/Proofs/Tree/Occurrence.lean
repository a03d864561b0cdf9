import Rebind.Proofs.Tree.Outermost

/-!
# What occurs in a tree

A node occurs in a tree if it is at some place of it, exposed or not. What it says there by itself
is its label: the shell, and for a property the shell of its key too. Some nodes say nothing, since
all they do is hold others together.
-/

namespace Rebind.Node

/-- `x` is a node of the tree `t`, be it the root. -/
def Occurs (x t : Node) : Prop :=
  ∃ place, t.at? place = some x

/-- Whether a node does nothing but hold others together. -/
def isBracket : Node → Bool
  | .list _ | .argument .. | .array .. | .object .. => true
  | _ => false

/-- Whether a node is an identifier, be it a variable or the key of a property. -/
def isName : Node → Bool
  | .ident _ | .key .. => true
  | _ => false

/-- What a node says by itself. -/
def label : Node → Node
  | .keyValue k _ => .keyValue k.shell .absent
  | n => n.shell

/-! ## Occurrence -/

theorem occurs_root (t : Node) : t.Occurs t :=
  ⟨[], rfl⟩

theorem Occurs.of_child {x c t : Node} (hc : c ∈ t.children) (h : x.Occurs c) : x.Occurs t := by
  obtain ⟨place, hx⟩ := h
  obtain ⟨i, hi⟩ := List.mem_iff_getElem?.mp hc
  exact ⟨i :: place, (at?_cons_of_getElem? hi place).trans hx⟩

theorem occurs_child {c t : Node} (hc : c ∈ t.children) : c.Occurs t :=
  (occurs_root c).of_child hc

theorem occurs_iff {x t : Node} : x.Occurs t ↔ x = t ∨ ∃ c ∈ t.children, x.Occurs c := by
  constructor
  · intro h
    obtain ⟨place, hx⟩ := h
    cases place with
    | nil => exact Or.inl (Option.some.inj hx).symm
    | cons i place =>
        cases hi : t.children[i]? with
        | none =>
            rw [at?_cons_of_none hi] at hx
            cases hx
        | some c =>
            rw [at?_cons_of_getElem? hi] at hx
            exact Or.inr ⟨c, List.mem_of_getElem? hi, place, hx⟩
  · intro h
    rcases h with heq | ⟨c, hc, hx⟩
    · rw [heq]
      exact occurs_root t
    · exact hx.of_child hc

theorem Occurs.trans {x y t : Node} (hx : x.Occurs y) (hy : y.Occurs t) : x.Occurs t := by
  induction t using induction_on_children with
  | step t ih =>
    rcases occurs_iff.mp hy with heq | ⟨c, hc, hyc⟩
    · rw [← heq]
      exact hx
    · exact (ih c hc hyc).of_child hc

/-- A name occurs below a node that is none. -/
theorem Occurs.below {x t : Node} (h : x.Occurs t) (hx : x.isName = true)
    (ht : t.isName = false) : ∃ c ∈ t.children, x.Occurs c := by
  rcases occurs_iff.mp h with heq | hbelow
  · rw [heq, ht] at hx
    cases hx
  · exact hbelow

theorem children_of_isName {x : Node} (h : x.isName = true) : x.children = [] := by
  cases x with
  | ident | key => rfl
  | _ => cases h

/-! ## Labels -/

theorem shell_label (n : Node) : n.label.shell = n.shell := by
  cases n <;> simp [label, shell, mapChildren]

/-- A node without nodes in it is known by its label. -/
theorem eq_of_label {x y : Node} (h : y.label = x.label) (hx : x.children = []) : y = x := by
  have hshell : y.shell = x.shell := by
    rw [← shell_label, h, shell_label]
  have hlength := length_children_of_shell hshell
  rw [hx] at hlength
  have hy : y.children = [] := List.length_eq_zero_iff.mp hlength
  exact eq_of_shell_of_children hshell (hy.trans hx.symm)

theorem label_mapChildren {f : Node → Node} {n : Node}
    (h : ∀ c ∈ n.children, (f c).shell = c.shell) : (n.mapChildren f).label = n.label := by
  cases n with
  | keyValue k value =>
      have hk : (f k).shell = k.shell := h k List.mem_cons_self
      rw [mapChildren, label, label, hk]
  | _ => exact shell_mapChildren f _

theorem label_mapDecorators (f : Node → Node) (n : Node) : (n.mapDecorators f).label = n.label := by
  cases n with
  | classDecl form attributes decorators parts => exact shell_mapDecorators f _
  | _ => rfl

theorem mem_children_of_mem_decorators {d n : Node} (h : d ∈ n.decorators) : d ∈ n.children := by
  cases n with
  | classDecl form attributes decorators parts => exact List.mem_append_left _ h
  | _ => cases h

theorem mem_children_mapDecorators {f : Node → Node} {c n : Node}
    (h : c ∈ (n.mapDecorators f).children) :
    c ∈ n.children ∨ ∃ d ∈ n.decorators, c = f d := by
  cases n with
  | classDecl form attributes decorators parts =>
      rcases List.mem_append.mp h with hc | hc
      · obtain ⟨d, hd, heq⟩ := List.mem_map.mp hc
        exact Or.inr ⟨d, hd, heq.symm⟩
      · exact Or.inl (List.mem_append_right _ hc)
  | _ => exact Or.inl h

end Rebind.Node
