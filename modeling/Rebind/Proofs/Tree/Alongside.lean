import Mathlib.Data.List.Forall2
import Mathlib.Data.List.Induction
import Rebind.Proofs.Tree.Redecorated

/-!
# Two redecorations of one tree

`Redecorated` compares a tree with one that it became. Here two trees are compared that one tree
became in two ways. Neither of them is the image of the other, so their decorators are related and
not mapped; all the rest is the same, by the same places as before.

What is exposed in the one is exposed in the other and in the tree that both came from. This is the
only step with anything in it: exposure speaks of all nodes on the way, so it is carried down a
place one node at a time.
-/

namespace Rebind

/-- The class declaration with these decorators. -/
def Node.withDecorators (ds : List Node) : Node → Node
  | .classDecl form attributes _ parts => .classDecl form attributes ds parts
  | n => n

/-- `t'` is `t` with related decorators in the place of those of the outermost class declarations. -/
structure Alongside (R : Node → Node → Prop) (t t' : Node) : Prop where
  shell_eq : ∀ place, t.Exposed place →
    (t'.at? place).map Node.shell = (t.at? place).map Node.shell
  class_eq : ∀ place c, t.Exposed place → t.at? place = some c → c.isClassDecl = true →
    ∃ ds, List.Forall₂ R c.decorators ds ∧ t'.at? place = some (c.withDecorators ds)

namespace Redecorated

open Node

variable {f g : Node → Node} {t t₁ t₂ : Node}

theorem withDecorators_mapDecorators (f g : Node → Node) (n : Node) :
    (n.mapDecorators f).withDecorators (n.decorators.map g) = n.mapDecorators g := by
  cases n <;> rfl

theorem exposed_of_exposed (h : Redecorated f t t₁) {place : List Nat} (h₁ : t₁.Exposed place) :
    t.Exposed place := by
  induction place using List.reverseRecOn with
  | nil => exact exposed_nil t
  | append_singleton place i ih =>
      have hplace := ih (h₁.of_above (List.prefix_append place [i]))
      intro above c hinit hne hat
      rcases List.prefix_concat_iff.mp hinit with heq | hprefix
      · exact absurd heq hne
      · by_cases hlast : above = place
        · subst hlast
          have hshell := h.shell_eq above hplace
          rw [hat] at hshell
          obtain ⟨c₁, hat₁, hc⟩ := Option.map_eq_some_iff.mp hshell
          rw [← isClassDecl_eq_of_shell hc]
          exact h₁ above c₁ hinit hne hat₁
        · exact hplace above c hprefix hlast hat

/-- Two redecorations of a tree whose images are related stand alongside each other. -/
theorem alongside {R : Node → Node → Prop} (h₁ : Redecorated f t t₁) (h₂ : Redecorated g t t₂)
    (hR : ∀ d, R (f d) (g d)) : Alongside R t₁ t₂ := by
  constructor
  · intro place hexposed
    have hplace := h₁.exposed_of_exposed hexposed
    rw [h₁.shell_eq place hplace, h₂.shell_eq place hplace]
  · intro place c₁ hexposed hat hclass
    have hplace := h₁.exposed_of_exposed hexposed
    have hshell := h₁.shell_eq place hplace
    rw [hat] at hshell
    obtain ⟨c, hc, hsame⟩ := Option.map_eq_some_iff.mp hshell.symm
    have hcclass : c.isClassDecl = true := by
      rw [isClassDecl_eq_of_shell hsame, hclass]
    have heq : c₁ = c.mapDecorators f :=
      Option.some.inj (hat.symm.trans (h₁.class_eq place c hplace hc hcclass))
    refine ⟨c.decorators.map g, ?_, ?_⟩
    · rw [heq, decorators_mapDecorators, List.forall₂_map_left_iff, List.forall₂_map_right_iff]
      exact List.forall₂_same.mpr fun d _ => hR d
    · rw [heq, withDecorators_mapDecorators]
      exact h₂.class_eq place c hplace hc hcclass

end Redecorated

end Rebind
