import Mathlib.Data.List.Forall2
import Rebind.Proofs.Rewrite.Binding
import Rebind.Proofs.Rewrite.Report

/-!
# Short forms that are written out

A provider in the short form stands for the long form with the same identifier
under both keys. To write some of them out by hand changes nothing: the rewrite
would have written them out anyway, and looks the class up under the one key
just as it looks the token up. The two go different ways through the rewrite,
since the short form is built anew and the long form is edited where it stands,
so it has to be shown that they come to the same node and the same notes.

`WrittenOut` says what may be written out: any of the elements that are in the
short form, in the lists of providers of the metadata of an outermost class
declaration. The relation of trees follows the walk, which stops at a class
declaration and goes through the children of every other node.
-/

namespace Rebind

namespace WrittenOut

/-- An element stays, or it is in the short form and is written out. -/
inductive Element (v : Vocabulary) : Node → Node → Prop
  | kept (e : Node) : Element v e e
  | written (token : Ident) :
      Element v (.argument none (.ident token)) (.argument none (.object .nowhere
        [.madeProperty v.bindKey (.ident token), .madeProperty v.implementKey (.ident token)]))

/-- In a list of providers, elements are written out; other properties stay. -/
inductive Property (v : Vocabulary) : Node → Node → Prop
  | kept (p : Node) : Property v p p
  | providers {k : Node} {span : Span} {es es' : List Node} (hk : k.isKey "providers" = true)
      (h : List.Forall₂ (Element v) es es') :
      Property v (.keyValue k (.array span es)) (.keyValue k (.array span es'))

inductive Decorator (v : Vocabulary) : Node → Node → Prop
  | kept (d : Node) : Decorator v d d
  | metadata {f : MetadataFrame} {ps ps' : List Node} (hname : f.callee.name ∈ v.decorators)
      (h : List.Forall₂ (Property v) ps ps') : Decorator v (f.fill ps) (f.fill ps')

inductive Tree (v : Vocabulary) : Node → Node → Prop
  | classDecl {form : ClassForm} {attributes : Attributes} {ds ds' : List Node}
      {parts : List (String × Node)} (h : List.Forall₂ (Decorator v) ds ds') :
      Tree v (.classDecl form attributes ds parts) (.classDecl form attributes ds' parts)
  | children {t t' : Node} (ht : t.isClassDecl = false) (hshell : t'.shell = t.shell)
      (h : ∀ (i : Nat) (c c' : Node), t.children[i]? = some c → t'.children[i]? = some c' →
        Tree v c c') : Tree v t t'

end WrittenOut

/-- `p'` is `p` with some of the short forms written out that a rewrite would
look at. -/
structure WrittenOut (v : Vocabulary) (p p' : Program) : Prop where
  kind : p'.kind = p.kind
  body : p'.body = { p.body with items := p'.body.items }
  items : List.Forall₂ (WrittenOut.Tree v) p.body.items p'.body.items

theorem map_eq_of_forall₂ {α β : Type} {R : α → α → Prop} {f : α → β} {l l' : List α}
    (h : List.Forall₂ R l l') (hf : ∀ a b, R a b → f b = f a) : l'.map f = l.map f := by
  induction h with
  | nil => rfl
  | cons hab _ ih => rw [List.map_cons, List.map_cons, hf _ _ hab, ih]

namespace WrittenOut

open Node Options

variable {o : Options}

/-! ## Elements -/

theorem Element.candidate? {e e' : Node} (h : Element o.vocabulary e e')
    (hkeys : o.bindKey ≠ o.implementKey) :
    o.vocabulary.candidate? e' = o.vocabulary.candidate? e := by
  cases h with
  | kept => rfl
  | written token => exact (o.candidate?_provider token token).trans (by rw [if_neg hkeys]; rfl)

theorem Element.rewriteProvider {e e' : Node} (h : Element o.vocabulary e e')
    (hkeys : o.bindKey ≠ o.implementKey) : o.rewriteProvider e' = o.rewriteProvider e := by
  refine Noted.eq_of_value_of_notes ?_ ?_
  · cases h with
    | kept => rfl
    | written token =>
        -- an empty table writes out what is short, and a rewrite behind it makes no difference
        have hchains : Chains { o with table := .empty } o o :=
          ⟨rfl, rfl, fun _ => rfl, Or.inl hkeys⟩
        exact (hchains.provider token).trans (o.value_rewriteProvider_short token).symm
  · rw [notes_rewriteProvider, notes_rewriteProvider, h.candidate? hkeys]

/-! ## Metadata -/

theorem elements_refl (v : Vocabulary) (es : List Node) : List.Forall₂ (Element v) es es :=
  List.forall₂_same.mpr fun e _ => .kept e

theorem Property.providers? {v : Vocabulary} {p p' : Node} (h : Property v p p') :
    List.Forall₂ (Element v) (p.providers?.getD []) (p'.providers?.getD []) ∧
      withoutProviders [p'] = withoutProviders [p] := by
  cases h with
  | kept => exact ⟨elements_refl v _, rfl⟩
  | @providers k span es es' hk h =>
      have hlist : ∀ es, (keyValue k (.array span es)).providers? = some es := fun _ => if_pos hk
      rw [withoutProviders, withoutProviders, List.filter_cons, List.filter_cons, hlist, hlist]
      exact ⟨h, rfl⟩

theorem properties {v : Vocabulary} {ps ps' : List Node} (h : List.Forall₂ (Property v) ps ps') :
    List.Forall₂ (Element v) (providerElements ps) (providerElements ps') ∧
      withoutProviders ps' = withoutProviders ps := by
  induction h with
  | nil => exact ⟨.nil, rfl⟩
  | @cons p p' ps ps' hp _ ih =>
      obtain ⟨helements, hothers⟩ := hp.providers?
      refine ⟨List.rel_append helements ih.1, ?_⟩
      rw [← List.singleton_append, ← List.singleton_append (l := ps), withoutProviders_append,
        withoutProviders_append, hothers, ih.2]

theorem rewriteMetadata {ps ps' : List Node} (h : List.Forall₂ (Property o.vocabulary) ps ps')
    (hkeys : o.bindKey ≠ o.implementKey) : o.rewriteMetadata ps' = o.rewriteMetadata ps := by
  obtain ⟨helements, hothers⟩ := properties h
  refine Noted.eq_of_value_of_notes ?_ ?_
  · rw [value_rewriteMetadata, value_rewriteMetadata, hothers, map_eq_of_forall₂ helements]
    exact fun e e' he => congrArg Noted.value (he.rewriteProvider hkeys)
  · have hhits := map_eq_of_forall₂ (f := fun e =>
      (o.vocabulary.candidate? e).bind (o.table.find? ·.name)) helements
        fun e e' he => by rw [he.candidate? hkeys]
    have hused := congrArg (List.filterMap id) hhits
    rw [List.filterMap_map, List.filterMap_map] at hused
    rw [notes_rewriteMetadata, notes_rewriteMetadata]
    exact congrArg (List.map Note.substituted) hused

/-! ## Decorators, trees and programs -/

theorem Decorator.rewriteDecorator {d d' : Node} (h : Decorator o.vocabulary d d')
    (hkeys : o.bindKey ≠ o.implementKey) : o.rewriteDecorator d' = o.rewriteDecorator d := by
  cases h with
  | kept => rfl
  | metadata hname h =>
      have hname' : o.decorators.contains _ = true := List.contains_iff_mem.mpr hname
      obtain ⟨himage, hnotes⟩ := rewriteDecorator_of_some (MetadataFrame.metadata?_fill hname' _)
      obtain ⟨himage', hnotes'⟩ := rewriteDecorator_of_some (MetadataFrame.metadata?_fill hname' _)
      refine Noted.eq_of_value_of_notes ?_ ?_
      · exact himage'.trans ((congrArg _ (rewriteMetadata h hkeys ▸ rfl)).trans himage.symm)
      · rw [hnotes, hnotes', rewriteMetadata h hkeys]

theorem Tree.rewrite {t t' : Node} (h : Tree o.vocabulary t t')
    (hkeys : o.bindKey ≠ o.implementKey) : t'.rewrite o = t.rewrite o := by
  induction h with
  | classDecl h =>
      have hdecorators := map_eq_of_forall₂ h fun d d' hd => hd.rewriteDecorator hkeys
      rw [Node.rewrite, Node.rewrite, Noted.forEach, Noted.forEach, hdecorators]
  | @children t t' ht hshell _ ih =>
      have ht' : t'.isClassDecl = false := by rw [isClassDecl_eq_of_shell hshell, ht]
      have hchildren : t'.children.map (Node.rewrite o) = t.children.map (Node.rewrite o) := by
        refine List.ext_getElem? fun i => ?_
        have hlength := length_children_of_shell hshell
        rw [List.getElem?_map, List.getElem?_map]
        cases hc : t.children[i]? with
        | none =>
            rw [List.getElem?_eq_none_iff] at hc
            rw [List.getElem?_eq_none_iff.mpr (by omega)]
        | some c =>
            obtain ⟨hi, -⟩ := List.getElem?_eq_some_iff.mp hc
            have hc' := List.getElem?_eq_getElem (l := t'.children) (i := i) (by omega)
            rw [hc', Option.map_some, Option.map_some, ih i c _ hc hc']
      refine Noted.eq_of_value_of_notes ?_ ?_
      · rw [value_rewrite_of_not_class o ht, value_rewrite_of_not_class o ht']
        refine eq_of_shell_of_children (by rw [shell_mapChildren, shell_mapChildren, hshell]) ?_
        have hvalues := congrArg (List.map Noted.value) hchildren
        rw [List.map_map, List.map_map] at hvalues
        rw [children_mapChildren, children_mapChildren]
        exact hvalues
      · have hnotes := congrArg (List.flatMap Noted.notes) hchildren
        rw [List.flatMap_map, List.flatMap_map] at hnotes
        rw [notes_rewrite_of_not_class o ht, notes_rewrite_of_not_class o ht', hnotes]

theorem walk {p p' : Program} (h : WrittenOut o.vocabulary p p')
    (hkeys : o.bindKey ≠ o.implementKey) : o.walk p' = o.walk p := by
  have htrees := map_eq_of_forall₂ h.items fun t t' ht => ht.rewrite hkeys
  refine Noted.eq_of_value_of_notes ?_ ?_
  · have hvalues := congrArg (List.map Noted.value) htrees
    rw [List.map_map, List.map_map] at hvalues
    rw [Options.walk, Options.walk, value_rewriteNodes, value_rewriteNodes]
    exact hvalues
  · have hnotes := congrArg (List.flatMap Noted.notes) htrees
    rw [List.flatMap_map, List.flatMap_map] at hnotes
    rw [Options.walk, Options.walk, notes_rewriteNodes, notes_rewriteNodes, hnotes]

end WrittenOut

namespace Options

/-- If the two keys differ, a program with some of its short forms written out is
rewritten to the same program, with the same substitutions and the same reports. -/
theorem rewrite_writtenOut {o : Options} (hkeys : o.bindKey ≠ o.implementKey) {p p' : Program}
    (h : WrittenOut o.vocabulary p p') (file : String) : o.rewrite file p' = o.rewrite file p := by
  have hwalk := h.walk hkeys
  have hsubstitutions : (o.rewrite file p').substitutions = (o.rewrite file p).substitutions := by
    rw [substitutions_rewrite, substitutions_rewrite, hwalk]
  have hkind : (o.rewrite file p').program.kind = (o.rewrite file p).program.kind := by
    rw [kind_rewrite, kind_rewrite, hsubstitutions, h.kind]
  have hprogram : (o.rewrite file p').program = (o.rewrite file p).program := by
    refine Program.eq_of_kind_of_body hkind ?_
    rw [body_rewrite, body_rewrite, hsubstitutions, hwalk, h.body]
  have hevents : (o.rewrite file p').events = (o.rewrite file p).events := by
    rw [events_rewrite, events_rewrite, hwalk, hkind, h.kind]
  calc o.rewrite file p'
      = ⟨(o.rewrite file p').program, (o.rewrite file p').substitutions,
          (o.rewrite file p').events⟩ := rfl
    _ = o.rewrite file p := by rw [hprogram, hsubstitutions, hevents]

/-- The first of two short forms is written out, and the second is not. -/
theorem rewrite_writtenOut_first :
    let o : Options := { table := (Table.ofList [⟨"A", "B", "./b"⟩]).1, bindKey := "bind" }
    let short : String → Node := fun name => .argument none (.ident (.made name))
    let long : Node := .argument none (.object .nowhere
      [.madeProperty "bind" (.ident (.made "A")), .madeProperty "useClass" (.ident (.made "A"))])
    let p : Program := .listing "Component" [short "A", short "C"]
    let p' : Program := .listing "Component" [long, short "C"]
    (o.bindKey ≠ o.implementKey ∧ WrittenOut o.vocabulary p p') ∧
      o.rewrite "a.ts" p' = o.rewrite "a.ts" p ∧
      (o.rewrite "a.ts" p').substitutions = [⟨"a.ts", "A", "B", "./b"⟩] := by
  intro o short long p p'
  have hkeys : o.bindKey ≠ o.implementKey := by decide
  have hwritten : WrittenOut o.vocabulary p p' := by
    have hproperties : List.Forall₂ (WrittenOut.Property o.vocabulary)
        (Node.providersProperty [short "A", short "C"])
        (Node.providersProperty [long, short "C"]) :=
      .cons (.providers rfl (.cons (.written _) (.cons (.kept _) .nil))) .nil
    have hdecorator := WrittenOut.Decorator.metadata (f := ⟨.nowhere, .nowhere, 0,
      .made "Component", .nowhere, .absent⟩) List.mem_cons_self hproperties
    exact ⟨rfl, rfl, .cons (.classDecl (.cons hdecorator .nil)) .nil⟩
  exact ⟨⟨hkeys, hwritten⟩, rewrite_writtenOut hkeys hwritten "a.ts", by decide⟩

end Options

end Rebind
