import Rebind.Proofs.Tree.Outermost

/-!
# Trees that differ in the decorators of their outermost class declarations

`Redecorated f t t'` says of two trees that every decorator of every outermost
class declaration of the first one is replaced by its image in the second, and
that they differ in nothing else. It is put in terms of places, so that it does
not depend on how anything walks a tree: at every exposed place there is the
same node apart from the nodes in it, and where that is a class declaration its
name, its heritage and its body are the same too.

Nothing is left open by this: `Redecorated.unique` says that there is one such
tree at most.
-/

namespace Rebind

/-- `t'` is `t` with the decorators of the outermost class declarations replaced
by their images, and nothing else changed. -/
structure Redecorated (f : Node → Node) (t t' : Node) : Prop where
  /-- At a place with no class declaration above it, the nodes differ in the
  nodes inside them at most. -/
  shell_eq : ∀ place, t.Exposed place →
    (t'.at? place).map Node.shell = (t.at? place).map Node.shell
  /-- An outermost class declaration has other decorators, and is the same
  otherwise. -/
  class_eq : ∀ place c, t.Exposed place → t.at? place = some c →
    c.isClassDecl = true → t'.at? place = some (c.mapDecorators f)

namespace Redecorated

open Node

variable {f g : Node → Node} {t t' t'' : Node}

/-! ## One level

What the relation says of a tree is what it says of the root and of the
children: four lemmas to take a pair of trees apart, two to put one together. -/

theorem eq_of_class (h : Redecorated f t t') (ht : t.isClassDecl = true) :
    t' = t.mapDecorators f :=
  Option.some.inj (h.class_eq [] t (exposed_nil t) rfl ht)

theorem root_shell (h : Redecorated f t t') : t'.shell = t.shell :=
  Option.some.inj (h.shell_eq [] (exposed_nil t))

theorem child (h : Redecorated f t t') (ht : t.isClassDecl = false) {i : Nat} {c : Node}
    (hc : t.children[i]? = some c) :
    ∃ c', t'.children[i]? = some c' ∧ Redecorated f c c' := by
  have hlength := length_children_of_shell h.root_shell
  obtain ⟨hi, -⟩ := List.getElem?_eq_some_iff.mp hc
  obtain ⟨c', hc'⟩ : ∃ c', t'.children[i]? = some c' :=
    ⟨_, List.getElem?_eq_getElem (by omega)⟩
  refine ⟨c', hc', ⟨?_, ?_⟩⟩
  · intro place hexposed
    have hshell := h.shell_eq (i :: place) (exposed_cons ht hc hexposed)
    rwa [at?_cons_of_getElem? hc, at?_cons_of_getElem? hc'] at hshell
  · intro place d hexposed hat hd
    have hclass := h.class_eq (i :: place) d (exposed_cons ht hc hexposed)
      (by rw [at?_cons_of_getElem? hc, hat]) hd
    rwa [at?_cons_of_getElem? hc'] at hclass

theorem no_child (h : Redecorated f t t') {i : Nat} (hc : t.children[i]? = none) :
    t'.children[i]? = none := by
  have hlength := length_children_of_shell h.root_shell
  rw [List.getElem?_eq_none_iff] at hc ⊢
  omega

theorem of_class (ht : t.isClassDecl = true) : Redecorated f t (t.mapDecorators f) := by
  constructor
  · intro place hexposed
    cases place with
    | nil => simp [at?]
    | cons i place => exact absurd hexposed.root (by simp [ht])
  · intro place c hexposed hat _
    cases place with
    | nil => rw [at?, ← Option.some.inj hat]
    | cons i place => exact absurd hexposed.root (by simp [ht])

theorem of_children (ht : t.isClassDecl = false)
    (h : ∀ c ∈ t.children, Redecorated f c (g c)) :
    Redecorated f t (t.mapChildren g) := by
  have hchild : ∀ i : Nat, (t.mapChildren g).children[i]? = t.children[i]?.map g := by
    intro i
    rw [children_mapChildren, List.getElem?_map]
  constructor
  · intro place hexposed
    cases place with
    | nil => simp [at?]
    | cons i place =>
        cases hi : t.children[i]? with
        | none =>
            rw [at?_cons_of_none hi, at?_cons_of_none (by rw [hchild, hi]; rfl)]
        | some c =>
            rw [at?_cons_of_getElem? hi,
              at?_cons_of_getElem? (by rw [hchild, hi]; rfl)]
            exact (h c (List.mem_of_getElem? hi)).shell_eq place (hexposed.child hi)
  · intro place c hexposed hat hc
    cases place with
    | nil =>
        rw [at?, Option.some.injEq] at hat
        exact absurd hc (by simp [← hat, ht])
    | cons i place =>
        cases hi : t.children[i]? with
        | none => rw [at?_cons_of_none hi] at hat; cases hat
        | some d =>
            rw [at?_cons_of_getElem? hi] at hat
            rw [at?_cons_of_getElem? (by rw [hchild, hi]; rfl)]
            exact (h d (List.mem_of_getElem? hi)).class_eq place c
              (hexposed.child hi) hat hc

/-! ## Whole trees -/

/-- The images of the decorators determine the tree. -/
theorem unique (h : Redecorated f t t') (h' : Redecorated f t t'') : t' = t'' := by
  induction t using induction_on_children generalizing t' t'' with
  | step t ih =>
    cases ht : t.isClassDecl with
    | true => rw [h.eq_of_class ht, h'.eq_of_class ht]
    | false =>
        have hshell := h.root_shell.trans h'.root_shell.symm
        refine eq_of_shell_of_children hshell (List.ext_getElem? fun i => ?_)
        cases hi : t.children[i]? with
        | none => rw [h.no_child hi, h'.no_child hi]
        | some c =>
            obtain ⟨c', hc', hr⟩ := h.child ht hi
            obtain ⟨c'', hc'', hr'⟩ := h'.child ht hi
            rw [hc', hc'', ih c (List.mem_of_getElem? hi) hr hr']

/-- The outermost class declarations are the same ones in the same order, with
other decorators. -/
theorem classes (h : Redecorated f t t') : t'.classes = t.classes.map (mapDecorators f) := by
  induction t using induction_on_children generalizing t' with
  | step t ih =>
    cases ht : t.isClassDecl with
    | true =>
        have ht' : t'.isClassDecl = true := by
          rw [isClassDecl_eq_of_shell h.root_shell, ht]
        rw [classes_of_class ht, classes_of_class ht', h.eq_of_class ht]
        rfl
    | false =>
        have ht' : t'.isClassDecl = false := by
          rw [isClassDecl_eq_of_shell h.root_shell, ht]
        have hlists : t'.children.map Node.classes =
            t.children.map fun c => c.classes.map (mapDecorators f) := by
          refine List.ext_getElem? fun i => ?_
          rw [List.getElem?_map, List.getElem?_map]
          cases hi : t.children[i]? with
          | none => rw [h.no_child hi, Option.map_none, Option.map_none]
          | some c =>
              obtain ⟨c', hc', hr⟩ := h.child ht hi
              rw [hc', Option.map_some, Option.map_some,
                ih c (List.mem_of_getElem? hi) hr]
        rw [classes_of_not_class ht, classes_of_not_class ht', List.flatMap_def,
          hlists, ← List.flatMap_def, List.map_flatMap]

/-! ## Other images

The relation is defined by places, so these follow without another look at the
trees. -/

theorem congr (h : Redecorated f t t')
    (hfg : ∀ c ∈ t.classes, ∀ d ∈ c.decorators, f d = g d) : Redecorated g t t' := by
  refine ⟨h.shell_eq, ?_⟩
  intro place c hexposed hat hc
  rw [h.class_eq place c hexposed hat hc]
  rw [mapDecorators_congr (hfg c (mem_classes_iff.mpr ⟨hc, place, hexposed, hat⟩))]

theorem refl (t : Node) : Redecorated (fun d => d) t t := by
  refine ⟨fun _ _ => rfl, ?_⟩
  intro place c _ hat _
  rw [hat, mapDecorators_id]

theorem exposed (h : Redecorated f t t') {place : List Nat} (hexposed : t.Exposed place) :
    t'.Exposed place := by
  intro above c' hinit hne hat'
  have hshell := h.shell_eq above (hexposed.of_above hinit)
  rw [hat', Option.map_some] at hshell
  obtain ⟨c, hat, hc⟩ := Option.map_eq_some_iff.mp hshell.symm
  rw [← isClassDecl_eq_of_shell hc]
  exact hexposed above c hinit hne hat

theorem trans (h : Redecorated f t t') (h' : Redecorated g t' t'') :
    Redecorated (fun d => g (f d)) t t'' := by
  constructor
  · intro place hexposed
    rw [h'.shell_eq place (h.exposed hexposed), h.shell_eq place hexposed]
  · intro place c hexposed hat hc
    have hat' := h.class_eq place c hexposed hat hc
    rw [h'.class_eq place _ (h.exposed hexposed) hat' (by simp [hc]),
      mapDecorators_mapDecorators]

end Redecorated

end Rebind
