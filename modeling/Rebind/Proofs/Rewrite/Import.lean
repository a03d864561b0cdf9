import Mathlib.Data.List.Forall2
import Mathlib.Data.List.Induction
import Mathlib.Data.List.Nodup
import Rebind.Rewrite.Substitution

/-!
# The imports that substitutions need

Every class that was put in has to be imported. The imports that a list of
substitutions needs are those of its members in order, and only the first of
each if each is to be written once.

What an import says is read off the node, part by part, and not taken from the
function that makes it.
-/

namespace Rebind

/-- The import that a substitution needs. -/
def Substitution.import (s : Substitution) : Import :=
  ⟨s.className, s.modulePath⟩

/-- The imports that substitutions need, in order; only the first of each, if
each is to be written once. -/
def Options.imports (o : Options) (l : List Substitution) : List Import :=
  if o.dedupeImports then (l.map Substitution.import).eraseDups
  else l.map Substitution.import

namespace Options

theorem imports_nil (o : Options) : o.imports [] = [] := by
  rw [imports]
  split <;> rfl

theorem mem_imports {o : Options} {l : List Substitution} {i : Import} :
    i ∈ o.imports l ↔ ∃ h ∈ l, h.import = i := by
  rw [imports]
  split
  · rw [List.mem_eraseDups, List.mem_map]
  · rw [List.mem_map]

theorem imports_eq_nil {o : Options} {l : List Substitution} :
    o.imports l = [] ↔ l = [] := by
  constructor
  · intro h
    cases l with
    | nil => rfl
    | cons s l =>
        have hmem : s.import ∈ o.imports (s :: l) :=
          mem_imports.mpr ⟨s, List.mem_cons_self, rfl⟩
        rw [h] at hmem
        cases hmem
  · intro h
    rw [h]
    exact imports_nil o

/-- One more substitution needs one more import, unless each is to be written
once and this one was needed before. -/
theorem imports_append_singleton (o : Options) (l : List Substitution)
    (s : Substitution) :
    o.imports (l ++ [s]) =
      if o.dedupeImports = true ∧ s.import ∈ o.imports l then o.imports l
      else o.imports l ++ [s.import] := by
  rw [imports, imports, List.map_append, List.map_cons, List.map_nil]
  cases o.dedupeImports with
  | false => simp
  | true =>
      simp only [if_true, true_and, List.eraseDups_append, List.mem_eraseDups, List.removeAll,
        List.filter_cons, List.filter_nil]
      by_cases hmem : s.import ∈ l.map Substitution.import
      · rw [if_neg (by simpa using hmem), if_pos hmem, List.eraseDups_nil, List.append_nil]
      · rw [if_pos (by simpa using hmem), if_neg hmem]
        rfl

theorem nodup_imports {o : Options} (h : o.dedupeImports = true) (l : List Substitution) :
    (o.imports l).Nodup := by
  induction l using List.reverseRecOn with
  | nil =>
      rw [imports_nil]
      exact List.nodup_nil
  | append_singleton l s ih =>
      rw [imports_append_singleton]
      split
      · exact ih
      · next hnew =>
          rw [← List.concat_eq_append]
          exact ih.concat fun hmem => hnew ⟨h, hmem⟩

theorem imports_of_nodup (o : Options) {l : List Substitution}
    (h : (l.map Substitution.import).Nodup) : o.imports l = l.map Substitution.import := by
  induction l using List.reverseRecOn with
  | nil => exact o.imports_nil
  | append_singleton l s ih =>
      rw [List.map_append, List.map_singleton, List.nodup_append] at h
      obtain ⟨hl, -, hapart⟩ := h
      have hnew : ¬ (o.dedupeImports = true ∧ s.import ∈ o.imports l) := by
        intro hbefore
        have hmem := hbefore.2
        rw [ih hl] at hmem
        exact hapart s.import hmem s.import (List.mem_singleton.mpr rfl) rfl
      rw [imports_append_singleton, if_neg hnew, ih hl, List.map_append, List.map_singleton]

end Options

/-! ## What an import says

An import binds names, which its module exports under these names or others. It
binds what they stand for at run time, unless a flag says that it is there for
types only, and evaluates the module for it, unless its phase or its attributes
say otherwise. -/

namespace Node

/-- The value of an attribute of a node without a constructor of its own. -/
def scalar? (n : Node) (name : String) : Option Json.Value :=
  match n with
  | .construct _ attributes _ => attributes.lookup name
  | _ => none

/-- A part of a node without a constructor of its own. -/
def part? (n : Node) (name : String) : Option Node :=
  match n with
  | .construct _ _ parts => parts.lookup name
  | _ => none

/-- The name that a specifier of an import binds. -/
def localName? : Node → Option String
  | .construct _ _ parts =>
      match parts.lookup "local" with
      | some (.ident i) => some i.name
      | _ => none
  | _ => none

/-- The names that a node binds if it is an import. -/
def localNames : Node → List String
  | .construct (some "ImportDeclaration") _ parts =>
      match parts.lookup "specifiers" with
      | some (.list specifiers) => specifiers.filterMap localName?
      | _ => []
  | _ => []

/-- The name that a module exports what a specifier binds under. If the specifier does not say, it is
the name that is bound. -/
def exportedName? (specifier : Node) : Option String :=
  match specifier.part? "imported" with
  | some (.ident i) => some i.name
  | some (.key _ name) => some name
  | some (.string _ name _) => some name
  | _ => specifier.localName?

/-- The specifiers of an import. -/
def specifiers (n : Node) : List Node :=
  match n.part? "specifiers" with
  | some (.list specifiers) => specifiers
  | _ => []

/-- The path of the module that an import is from. -/
def importPath? (n : Node) : Option String :=
  match n.part? "source" with
  | some (.string _ path _) => some path
  | _ => none

/-- Whether a flag of a node is set. -/
def isSet (n : Node) (flag : String) : Bool :=
  match n.scalar? flag with
  | some (.bool b) => b
  | _ => false

/-- Whether an import, or a specifier of it, is there for types only. -/
def importsTypes (n : Node) : Bool :=
  n.isSet "typeOnly" || n.specifiers.any (·.isSet "isTypeOnly")

/-- The node is an import of one class as a value, under the name that the module at the path exports
it under. -/
structure ImportsClass (n : Node) (className modulePath : String) : Prop where
  localNames : n.localNames = [className]
  exportedNames : n.specifiers.filterMap exportedName? = [className]
  path : n.importPath? = some modulePath
  values : n.importsTypes = false
  phase : n.scalar? "phase" = some (.string "evaluation")
  noAttributes : n.part? "with" = some .absent

end Node

theorem Import.importsClass_declaration (i : Import) :
    i.declaration.ImportsClass i.className i.modulePath where
  localNames := rfl
  exportedNames := rfl
  path := rfl
  values := rfl
  phase := rfl
  noAttributes := rfl

/-- Declarations import, one after the other, the classes that they were made for. -/
theorem Import.importsClass_declarations (l : List Import) :
    List.Forall₂ (fun (n : Node) i => n.ImportsClass i.className i.modulePath)
      (l.map Import.declaration) l :=
  List.forall₂_map_left_iff.mpr (List.forall₂_same.mpr fun i _ => i.importsClass_declaration)

end Rebind
