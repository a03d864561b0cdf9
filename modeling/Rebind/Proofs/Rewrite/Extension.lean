import Rebind.Proofs.Rewrite.Binding
import Rebind.Proofs.Tree.Alongside

/-!
# More definitions at the end

Definitions that are added behind others are asked only where the others have nothing to say. What
was replaced before is replaced by the same class from the same path, and the classes that are
replaced in addition are those whose first definition is a new one.

The two rewrites are compared by what they make of the same program, decorator by decorator. They
need not come to the same kind of program, nor to the same imports, so only the statements can be
held against each other.
-/

namespace Rebind

/-- The same element, or one in which another identifier is under a property with this key. -/
inductive Node.OtherClass (name : String) (R : Ident → Ident → Prop) : Node → Node → Prop
  | same (e : Node) : OtherClass name R e e
  | other {span : Span} {before after : List Node} {k : Node} {i i' : Ident}
      (hk : k.isKey name = true) (h : R i i') :
      OtherClass name R (.argument none (.object span (before ++ .keyValue k (.ident i) :: after)))
        (.argument none (.object span (before ++ .keyValue k (.ident i') :: after)))

/-- The same decorator, or one with other classes in the elements of its list of providers. -/
inductive Node.OtherClasses (v : Vocabulary) (R : Ident → Ident → Prop) : Node → Node → Prop
  | same (d : Node) : OtherClasses v R d d
  | metadata {f : MetadataFrame} {others es es' : List Node} (hname : f.callee.name ∈ v.decorators)
      (h : List.Forall₂ (Node.OtherClass v.implementKey R) es es') :
      OtherClasses v R (f.fill (others ++ Node.providersProperty es))
        (f.fill (others ++ Node.providersProperty es'))

namespace Options

open Node

/-- The options with the table of these definitions. -/
def defining (o : Options) (rs : List Replacement) : Options :=
  { o with table := (Table.ofList rs).1 }

/-- The class is one that only the new definitions replace, and what they replace it by. -/
def Replaced (rs new : List Replacement) (i i' : Ident) : Prop :=
  (∀ r ∈ rs, r.original ≠ i.name) ∧
    ∃ r, new.find? (·.original == i.name) = some r ∧ i' = .made r.className

variable (o : Options) (rs new : List Replacement)

theorem lookup_defining_append (i : Ident) :
    (o.defining (rs ++ new)).lookup i = (o.defining rs).lookup i ∨
      (o.defining rs).lookup i = i ∧ Replaced rs new i ((o.defining (rs ++ new)).lookup i) := by
  have hfewer := Table.find?_ofList rs i.name
  have hmore := Table.find?_ofList_append rs new i.name
  cases hold : rs.find? (·.original == i.name) with
  | some r =>
      rw [hold] at hfewer hmore
      rw [lookup_of_some (o := o.defining rs) hfewer,
        lookup_of_some (o := o.defining (rs ++ new)) hmore]
      exact Or.inl rfl
  | none =>
      rw [hold] at hfewer hmore
      rw [lookup_of_none (o := o.defining rs) hfewer]
      cases hnew : new.find? (·.original == i.name) with
      | none =>
          rw [hnew] at hmore
          exact Or.inl (lookup_of_none (o := o.defining (rs ++ new)) hmore)
      | some r =>
          rw [hnew] at hmore
          refine Or.inr ⟨rfl, fun l hl heq => ?_, r, hnew,
            lookup_of_some (o := o.defining (rs ++ new)) hmore⟩
          exact List.find?_eq_none.mp hold l hl (beq_iff_eq.mpr heq)

/-! ## Statements -/

theorem otherClass_bound {v : Vocabulary} {R : Ident → Ident → Prop} {e : Node} {x i i' : Ident}
    (hx : v.candidate? e = some x) (h : R i i') :
    OtherClass v.implementKey R (v.bound e i) (v.bound e i') := by
  rcases element_cases e with ⟨token, rfl⟩ | ⟨span, ps, rfl⟩ | ⟨-, hnone⟩
  · have hkey : (Node.key .nowhere v.implementKey).isKey v.implementKey = true :=
      beq_self_eq_true v.implementKey
    exact @OtherClass.other v.implementKey R .nowhere [.madeProperty v.bindKey (.ident token)] [] _
      i i' hkey h
  · rw [Vocabulary.candidate?] at hx
    split at hx
    · obtain ⟨before, k, after, rfl, hbefore, hk⟩ := exists_split_of_implementer? hx
      rw [Vocabulary.bound, Vocabulary.bound, setImplementer_split hbefore hk,
        setImplementer_split hbefore hk]
      exact .other hk h
    · cases hx
  · rw [hnone] at hx
    cases hx

theorem otherClass_rewriteProvider (e : Node) :
    OtherClass o.implementKey (Replaced rs new) ((o.defining rs).rewriteProvider e).value
      ((o.defining (rs ++ new)).rewriteProvider e).value := by
  have hnames : (o.defining rs).vocabulary = (o.defining (rs ++ new)).vocabulary := rfl
  rw [value_rewriteProvider, value_rewriteProvider, hnames]
  cases hx : (o.defining (rs ++ new)).vocabulary.candidate? e with
  | none => exact .same e
  | some x =>
      have hbound : OtherClass o.implementKey (Replaced rs new)
          ((o.defining (rs ++ new)).vocabulary.bound e ((o.defining rs).lookup x))
          ((o.defining (rs ++ new)).vocabulary.bound e ((o.defining (rs ++ new)).lookup x)) := by
        rcases o.lookup_defining_append rs new x with hsame | ⟨hold, hreplaced⟩
        · rw [hsame]
          exact .same _
        · rw [hold]
          exact otherClass_bound hx hreplaced
      exact hbound

theorem otherClasses_image (d : Node) :
    OtherClasses o.vocabulary (Replaced rs new) ((o.defining rs).image d)
      ((o.defining (rs ++ new)).image d) := by
  cases hd : d.metadata? o.decorators with
  | none =>
      rw [(rewriteDecorator_of_none (o := o.defining rs) hd).1,
        (rewriteDecorator_of_none (o := o.defining (rs ++ new)) hd).1]
      exact .same d
  | some m =>
      obtain ⟨f, ps⟩ := m
      rw [(rewriteDecorator_of_some (o := o.defining rs) hd).1,
        (rewriteDecorator_of_some (o := o.defining (rs ++ new)) hd).1, value_rewriteMetadata,
        value_rewriteMetadata]
      refine .metadata (List.contains_iff_mem.mp (eq_fill_of_metadata? hd).2) ?_
      rw [List.forall₂_map_left_iff, List.forall₂_map_right_iff]
      exact List.forall₂_same.mpr fun e _ => o.otherClass_rewriteProvider rs new e

/-! ## Substitutions -/

theorem find?_filter_defining (name : String) :
    ((o.defining (rs ++ new)).table.find? name).filter
        (fun r => rs.any (·.original == r.original)) =
      (o.defining rs).table.find? name := by
  have hfewer : (o.defining rs).table.find? name = _ := Table.find?_ofList rs name
  have hmore : (o.defining (rs ++ new)).table.find? name = _ :=
    Table.find?_ofList_append rs new name
  rw [hfewer, hmore]
  cases hold : rs.find? (·.original == name) with
  | some r =>
      have hany : rs.any (·.original == r.original) = true :=
        List.any_eq_true.mpr ⟨r, List.mem_of_find?_eq_some hold, beq_self_eq_true _⟩
      rw [Option.some_or, Option.filter_some, if_pos hany]
  | none =>
      rw [Option.none_or, Option.filter_eq_none_iff]
      intro r hr hany
      obtain ⟨l, hl, hsame⟩ := List.any_eq_true.mp hany
      have hname : r.original = name := by simpa using List.find?_some hr
      exact List.find?_eq_none.mp hold l hl (hname ▸ hsame)

theorem substitutions_defining_append (file : String) (p : Program) :
    ((o.defining rs).rewrite file p).substitutions =
      ((o.defining (rs ++ new)).rewrite file p).substitutions.filter
        fun s => rs.any (·.original == s.original) := by
  have hnames : (o.defining rs).vocabulary = (o.defining (rs ++ new)).vocabulary := rfl
  rw [substitutions_rewrite, substitutions_rewrite, hits_walk, hits_walk, hnames, List.filter_map,
    List.filter_filterMap]
  refine congrArg (List.map _) (List.filterMap_congr fun x _ => ?_)
  exact (o.find?_filter_defining rs new x.name).symm

/-- Definitions that are added at the end do not touch what the others decide. The substitutions
with fewer definitions are those with more whose class the fewer define, as they are. The statements
differ in the classes of providers, where only the new definitions have one to put in. If these
define no class that is not defined before, nothing differs. -/
theorem rewrite_defining_append (file : String) (p : Program) :
    let fewer := (o.defining rs).rewrite file p
    let more := (o.defining (rs ++ new)).rewrite file p
    fewer.substitutions =
      more.substitutions.filter (fun s => rs.any (·.original == s.original)) ∧
    (∃ statements statements',
      fewer.program.body = { p.body with
        items := (o.imports fewer.substitutions).map Import.declaration ++ statements } ∧
      more.program.body = { p.body with
        items := (o.imports more.substitutions).map Import.declaration ++ statements' } ∧
      Alongside (OtherClasses o.vocabulary (Replaced rs new)) (.list statements)
        (.list statements')) ∧
    ((∀ r' ∈ new, ∃ r ∈ rs, r.original = r'.original) → more = fewer) := by
  intro fewer more
  refine ⟨o.substitutions_defining_append rs new file p, ⟨((o.defining rs).walk p).value,
    ((o.defining (rs ++ new)).walk p).value, (o.defining rs).body_rewrite file p,
    (o.defining (rs ++ new)).body_rewrite file p, ?_⟩, fun hknown => ?_⟩
  · exact ((o.defining rs).redecorated_walk p).alongside
      ((o.defining (rs ++ new)).redecorated_walk p) (o.otherClasses_image rs new)
  · have hsame : o.defining (rs ++ new) = o.defining rs := by
      rw [defining, defining, Table.ofList_append_of_known hknown]
    exact congrArg (fun o' => Options.rewrite o' file p) hsame

/-- A second definition of `A` changes nothing. A first one of `C` adds its substitution, and those
of the shorter list are what is left without it. -/
theorem rewrite_defining_append_known_and_new :
    let o : Options := {}
    let old : List Replacement := [⟨"A", "B", "./b"⟩]
    let known : List Replacement := [⟨"A", "E", "./e"⟩]
    let new : List Replacement := [⟨"C", "D", "./d"⟩]
    let short (name : String) : Node := .argument none (.ident (.made name))
    let p : Program := .listing "Component" [short "A", short "C"]
    (∀ r' ∈ known, ∃ r ∈ old, r.original = r'.original) ∧
    (o.defining (old ++ known)).rewrite "a.ts" p = (o.defining old).rewrite "a.ts" p ∧
    ((o.defining (old ++ new)).rewrite "a.ts" p).substitutions =
      [⟨"a.ts", "A", "B", "./b"⟩, ⟨"a.ts", "C", "D", "./d"⟩] ∧
    ((o.defining old).rewrite "a.ts" p).substitutions = [⟨"a.ts", "A", "B", "./b"⟩] := by
  intro o old known new short p
  have hknown : ∀ r' ∈ known, ∃ r ∈ old, r.original = r'.original := by decide
  have hmore : ((o.defining (old ++ new)).rewrite "a.ts" p).substitutions =
      [⟨"a.ts", "A", "B", "./b"⟩, ⟨"a.ts", "C", "D", "./d"⟩] := by decide
  have hfewer := (rewrite_defining_append o old new "a.ts" p).1
  rw [hmore] at hfewer
  exact ⟨hknown, (rewrite_defining_append o old known "a.ts" p).2.2 hknown, hmore, hfewer⟩

end Options

end Rebind
