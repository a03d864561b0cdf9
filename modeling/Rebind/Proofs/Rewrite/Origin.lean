import Rebind.Proofs.Options.Duplicate
import Rebind.Proofs.Options.Reader
import Rebind.Proofs.Rewrite.Binding
import Rebind.Proofs.Tree.Occurrence

/-!
# Where the nodes of a rewritten program come from

A rewrite puts three things into a program: imports in front, the classes of replacements, and the
keys of long forms and of lists of providers. All the rest was there before. `Origin` lists these
ways for one node, and `Traced` says that every node of a tree came by one of them. This is carried
up from the elements to the program, one lemma for each level, and nothing is asked on the way but
that what is rewritten occurs in the program.

The classes and the keys are those of the options. If these were read from a text, they are what the
text says, and were checked: for each class the first definition of it counts.
-/

namespace Rebind

open Json Node

/-! ## Origins -/

namespace Options

/-- The keys that a rewrite makes. -/
def madeKeys (o : Options) : List String :=
  ["providers", o.bindKey, o.implementKey]

/-- How a node can come into a program that is rewritten, imports apart. -/
inductive Origin (o : Options) (p : Program) : Node → Prop
  | bracket {x : Node} (h : x.isBracket = true) : Origin o p x
  | kept {x y : Node} (hy : y.Occurs (.list p.body.items)) (h : y.label = x.label) : Origin o p x
  | key {name : String} (h : name ∈ o.madeKeys) : Origin o p (.key .nowhere name)
  | property {name : String} {value : Node} (h : name ∈ o.madeKeys) :
      Origin o p (.madeProperty name value)
  | replaced {e : Node} {x : Ident} {r : Replacement} (he : e ∈ o.vocabulary.elements p)
      (hx : o.vocabulary.candidate? e = some x) (hr : o.table.find? x.name = some r) :
      Origin o p (.ident (.made r.className))

/-- Every node of the tree has an origin. -/
def Traced (o : Options) (p : Program) (t : Node) : Prop :=
  ∀ x, x.Occurs t → o.Origin p x

variable {o : Options} {p : Program}

theorem traced_of_occurs {t : Node} (h : t.Occurs (.list p.body.items)) : o.Traced p t :=
  fun _ hx => .kept (hx.trans h) rfl

theorem traced_of_children {t : Node} (h : o.Origin p t) (hc : ∀ c ∈ t.children, o.Traced p c) :
    o.Traced p t := by
  intro x hx
  rcases occurs_iff.mp hx with heq | ⟨c, hmem, hxc⟩
  · rw [heq]
    exact h
  · exact hc c hmem x hxc

theorem traced_argument {spread : Option Span} {e : Node} (h : o.Traced p e) :
    o.Traced p (.argument spread e) :=
  traced_of_children (.bracket rfl) (List.forall_mem_singleton.mpr h)

theorem traced_object {span : Span} {ps : List Node} (h : ∀ q ∈ ps, o.Traced p q) :
    o.Traced p (.object span ps) :=
  traced_of_children (.bracket rfl) h

theorem traced_madeProperty {name : String} {value : Node} (hname : name ∈ o.madeKeys)
    (h : o.Traced p value) : o.Traced p (.madeProperty name value) := by
  have hkey : o.Traced p (.key .nowhere name) :=
    traced_of_children (.key hname) fun _ hc => absurd hc List.not_mem_nil
  exact traced_of_children (.property hname) (List.forall_mem_cons.mpr
    ⟨hkey, List.forall_mem_singleton.mpr h⟩)

/-! ## Elements -/

theorem traced_lookup {e : Node} {x : Ident} (he : e ∈ o.vocabulary.elements p)
    (hx : o.vocabulary.candidate? e = some x) (hoccurs : (Node.ident x).Occurs (.list p.body.items)) :
    o.Traced p (.ident (o.lookup x)) := by
  cases hr : o.table.find? x.name with
  | none =>
      rw [lookup_of_none hr]
      exact traced_of_occurs hoccurs
  | some r =>
      rw [lookup_of_some hr]
      exact traced_of_children (.replaced he hx hr) fun _ hc => absurd hc List.not_mem_nil

theorem traced_replaceClass {ps : List Node} (hps : ∀ q ∈ ps, q.Occurs (.list p.body.items))
    (hlookup : ∀ x, implementer? o.implementKey ps = some x →
      (Node.ident x).Occurs (.list p.body.items) → o.Traced p (.ident (o.lookup x))) :
    ∀ q ∈ (o.replaceClass ps).value, o.Traced p q := by
  intro q hq
  cases hx : implementer? o.implementKey ps with
  | none =>
      rw [replaceClass_of_none hx] at hq
      exact traced_of_occurs (hps q hq)
  | some x =>
      obtain ⟨before, k, after, rfl, hbefore, hk⟩ := exists_split_of_implementer? hx
      rw [(replaceClass_split hbefore hk).1] at hq
      rcases List.mem_append.mp hq with hq | hq
      · exact traced_of_occurs (hps q (List.mem_append_left _ hq))
      · rcases List.mem_cons.mp hq with rfl | hq
        · have hproperty := hps (.keyValue k (.ident x)) (by simp)
          have hkey : o.Traced p k :=
            traced_of_occurs ((occurs_child List.mem_cons_self).trans hproperty)
          have hclass : o.Traced p (.ident (o.lookup x)) :=
            hlookup x hx ((occurs_child (by simp [children])).trans hproperty)
          exact traced_of_children (.kept hproperty rfl) (List.forall_mem_cons.mpr
            ⟨hkey, List.forall_mem_singleton.mpr hclass⟩)
        · exact traced_of_occurs (hps q (List.mem_append_right _ (List.mem_cons_of_mem _ hq)))

theorem traced_rewriteProvider {e : Node} (he : e ∈ o.vocabulary.elements p)
    (hoccurs : e.Occurs (.list p.body.items)) : o.Traced p (o.rewriteProvider e).value := by
  rcases element_cases e with ⟨token, rfl⟩ | ⟨span, ps, rfl⟩ | ⟨hsame, -⟩
  · have htoken : (Node.ident token).Occurs (.list p.body.items) :=
      (occurs_child List.mem_cons_self).trans hoccurs
    have hbound : o.Traced p (.madeProperty o.bindKey (.ident token)) :=
      traced_madeProperty (by simp [madeKeys]) (traced_of_occurs htoken)
    have himplemented : o.Traced p (.madeProperty o.implementKey (.ident (o.lookup token))) :=
      traced_madeProperty (by simp [madeKeys]) (traced_lookup he (candidate?_short o token) htoken)
    rw [value_rewriteProvider_short]
    exact traced_argument (traced_object (List.forall_mem_cons.mpr
      ⟨hbound, List.forall_mem_singleton.mpr himplemented⟩))
  · rw [value_rewriteProvider_long]
    split
    · next hbind =>
        refine traced_argument (traced_object (traced_replaceClass (fun q hq => ?_) ?_))
        · exact ((occurs_child hq).of_child List.mem_cons_self).trans hoccurs
        · intro x hx hclass
          exact traced_lookup he (by rw [candidate?_long, if_pos hbind, hx]) hclass
    · exact traced_of_occurs hoccurs
  · rw [hsame, Noted.value_pure]
    exact traced_of_occurs hoccurs

/-! ## Metadata and decorators -/

theorem occurs_of_mem_providerElements {e : Node} {ps : List Node}
    (h : e ∈ providerElements ps) : ∃ q ∈ ps, e.Occurs q := by
  obtain ⟨q, hq, he⟩ := List.mem_flatMap.mp h
  refine ⟨q, hq, ?_⟩
  cases hlist : q.providers? with
  | none =>
      rw [hlist] at he
      cases he
  | some es =>
      obtain ⟨k, span, rfl, -⟩ := exists_of_providers? hlist
      rw [hlist] at he
      have harray : e.Occurs (.array span es) := occurs_child he
      exact harray.of_child (by simp [children])

theorem traced_rewriteMetadata {ps : List Node}
    (hps : ∀ q ∈ ps, q.Occurs (.list p.body.items))
    (helements : providerElements ps ⊆ o.vocabulary.elements p) :
    ∀ q ∈ (o.rewriteMetadata ps).value, o.Traced p q := by
  intro q hq
  rw [value_rewriteMetadata] at hq
  rcases List.mem_append.mp hq with hq | hq
  · exact traced_of_occurs (hps q (List.mem_filter.mp hq).1)
  · rw [providersProperty] at hq
    split at hq
    · cases hq
    · rw [List.mem_singleton] at hq
      rw [hq]
      refine traced_madeProperty List.mem_cons_self (traced_of_children (.bracket rfl) ?_)
      intro e' he'
      obtain ⟨e, he, rfl⟩ := List.mem_map.mp he'
      obtain ⟨q', hq', hoccurs⟩ := occurs_of_mem_providerElements he
      exact traced_rewriteProvider (helements he) (hoccurs.trans (hps q' hq'))

theorem occurs_of_mem_fill {f : MetadataFrame} {q : Node} {ps : List Node} (h : q ∈ ps) :
    q.Occurs (f.fill ps) := by
  have hobject : q.Occurs (.object f.objectSpan ps) := occurs_child h
  have hargument : q.Occurs (.argument none (.object f.objectSpan ps)) :=
    hobject.of_child List.mem_cons_self
  exact (hargument.of_child (by simp [children])).of_child List.mem_cons_self

/-- The frame of metadata has its origin in the frame that was there before. -/
theorem traced_fill {f : MetadataFrame} {ps ps' : List Node}
    (hframe : (f.fill ps).Occurs (.list p.body.items)) (h : ∀ q ∈ ps', o.Traced p q) :
    o.Traced p (f.fill ps') := by
  have hcall : (Node.call f.callSpan f.context (.ident f.callee)
      [.argument none (.object f.objectSpan ps)] f.typeArguments).Occurs (.list p.body.items) :=
    (occurs_child List.mem_cons_self).trans hframe
  have hcallee : o.Traced p (.ident f.callee) :=
    traced_of_occurs ((occurs_child List.mem_cons_self).trans hcall)
  have htypes : o.Traced p f.typeArguments :=
    traced_of_occurs ((occurs_child (by simp [children])).trans hcall)
  have hmetadata : o.Traced p (.argument none (.object f.objectSpan ps')) :=
    traced_argument (traced_object h)
  refine traced_of_children (.kept hframe rfl) (List.forall_mem_singleton.mpr ?_)
  exact traced_of_children (.kept hcall rfl) (List.forall_mem_cons.mpr
    ⟨hcallee, List.forall_mem_cons.mpr ⟨hmetadata, List.forall_mem_singleton.mpr htypes⟩⟩)

theorem traced_image {d : Node} (hd : d.Occurs (.list p.body.items))
    (helements : o.vocabulary.ofDecorator d ⊆ o.vocabulary.elements p) :
    o.Traced p (o.image d) := by
  cases hm : d.metadata? o.vocabulary.decorators with
  | none =>
      rw [(rewriteDecorator_of_none hm).1]
      exact traced_of_occurs hd
  | some m =>
      obtain ⟨f, ps⟩ := m
      rw [Vocabulary.ofDecorator, hm] at helements
      rw [(rewriteDecorator_of_some hm).1]
      obtain ⟨rfl, -⟩ := eq_fill_of_metadata? hm
      have hps : ∀ q ∈ ps, q.Occurs (.list p.body.items) := fun q hq =>
        (occurs_of_mem_fill hq).trans hd
      exact traced_fill hd (traced_rewriteMetadata hps helements)

/-! ## Programs -/

theorem traced_rewrite {n : Node} (hn : n.Occurs (.list p.body.items))
    (helements : o.vocabulary.ofTree n ⊆ o.vocabulary.elements p) :
    o.Traced p (n.rewrite o).value := by
  induction n using induction_on_children with
  | step n ih =>
    have hchild : ∀ c ∈ n.children, c.Occurs (.list p.body.items) := fun c hc =>
      (occurs_child hc).trans hn
    cases hclass : n.isClassDecl with
    | true =>
        rw [Vocabulary.ofTree, classes_of_class hclass, List.flatMap_singleton] at helements
        rw [value_rewrite_of_class o hclass]
        refine traced_of_children (.kept hn (label_mapDecorators o.image n).symm) fun c hc => ?_
        rcases mem_children_mapDecorators hc with hc | ⟨d, hd, rfl⟩
        · exact traced_of_occurs (hchild c hc)
        · exact traced_image (hchild d (mem_children_of_mem_decorators hd))
            fun e he => helements (List.mem_flatMap.mpr ⟨d, hd, he⟩)
    | false =>
        have hlabel := label_mapChildren fun c (_ : c ∈ n.children) =>
          (redecorated_rewrite o c).root_shell
        rw [Vocabulary.ofTree, classes_of_not_class hclass, List.flatMap_assoc] at helements
        rw [value_rewrite_of_not_class o hclass]
        refine traced_of_children (.kept hn hlabel.symm) fun c' hc' => ?_
        rw [children_mapChildren] at hc'
        obtain ⟨c, hc, rfl⟩ := List.mem_map.mp hc'
        exact ih c hc (hchild c hc) fun e he => helements (List.mem_flatMap.mpr ⟨c, hc, he⟩)

theorem traced_walk (o : Options) (p : Program) : o.Traced p (.list (o.walk p).value) := by
  refine traced_of_children (.bracket rfl) fun n' hn' => ?_
  rw [walk, value_rewriteNodes] at hn'
  obtain ⟨n, hn, rfl⟩ := List.mem_map.mp hn'
  exact traced_rewrite (occurs_child hn) fun e he => List.mem_flatMap.mpr ⟨n, hn, he⟩

theorem occurs_prepended_or_origin {file : String} {x : Node}
    (h : x.Occurs (.list (o.rewrite file p).program.body.items)) :
    (∃ n ∈ o.prepended file p, x.Occurs n) ∨ o.Origin p x := by
  rw [body_rewrite, ← prepended_eq] at h
  rcases occurs_iff.mp h with rfl | ⟨n, hn, hx⟩
  · exact Or.inr (.bracket rfl)
  · rcases List.mem_append.mp hn with hn | hn
    · exact Or.inl ⟨n, hn, hx⟩
    · exact Or.inr (traced_walk o p x (hx.of_child hn))

/-! ## Names -/

theorem name_of_occurs_declaration {i : Import} {x : Node} (h : x.Occurs i.declaration)
    (hx : x.isName = true) : x = .ident (.made i.className) := by
  obtain ⟨part, hpart, h⟩ := h.below hx rfl
  simp only [Import.declaration, children, List.map_cons, List.map_nil, List.mem_cons,
    List.not_mem_nil, or_false] at hpart
  rcases hpart with rfl | rfl | rfl
  · obtain ⟨specifier, hspecifier, h⟩ := h.below hx rfl
    rw [children, List.mem_singleton] at hspecifier
    subst hspecifier
    obtain ⟨part, hpart, h⟩ := h.below hx rfl
    simp only [children, List.map_cons, List.map_nil, List.mem_cons, List.not_mem_nil,
      or_false] at hpart
    rcases hpart with rfl | rfl
    · rcases occurs_iff.mp h with heq | ⟨c, hc, -⟩
      · exact heq
      · cases hc
    · obtain ⟨c, hc, -⟩ := h.below hx rfl
      cases hc
  · obtain ⟨c, hc, -⟩ := h.below hx rfl
    cases hc
  · obtain ⟨c, hc, -⟩ := h.below hx rfl
    cases hc

theorem import_of_mem_prepended {file : String} {n : Node} (h : n ∈ o.prepended file p) :
    ∃ s ∈ (o.rewrite file p).substitutions,
      n = (Import.mk s.className s.modulePath).declaration ∧
        n.ImportsClass s.className s.modulePath := by
  rw [prepended_eq] at h
  obtain ⟨i, hi, rfl⟩ := List.mem_map.mp h
  obtain ⟨s, hs, rfl⟩ := mem_imports.mp hi
  exact ⟨s, hs, rfl, s.import.importsClass_declaration⟩

theorem name_of_occurs_rewrite {file : String} {x : Node} (hx : x.isName = true)
    (h : x.Occurs (.list (o.rewrite file p).program.body.items)) :
    x.Occurs (.list p.body.items) ∨
      (∃ s ∈ (o.rewrite file p).substitutions, x = .ident (.made s.className)) ∨
      ∃ name ∈ o.madeKeys, x = .key .nowhere name := by
  rcases occurs_prepended_or_origin h with ⟨n, hn, hoccurs⟩ | horigin
  · obtain ⟨s, hs, rfl, -⟩ := import_of_mem_prepended hn
    exact Or.inr (Or.inl ⟨s, hs, name_of_occurs_declaration hoccurs hx⟩)
  · cases horigin with
    | bracket h =>
        cases x with
        | ident | key => cases h
        | _ => cases hx
    | kept hy hlabel => exact Or.inl (eq_of_label hlabel (children_of_isName hx) ▸ hy)
    | key hname => exact Or.inr (Or.inr ⟨_, hname, rfl⟩)
    | property _ => cases hx
    | replaced he hcandidate hr =>
        exact Or.inr (Or.inl ⟨_, substitution_mem he hcandidate hr file, rfl⟩)

/-! ## Options that were read -/

theorem draft_of_read {text : String} (h : (Options.read text).result = .ok o) :
    ∃ (v : Value) (d : Draft), v.Spells text ∧ v.IsDraft d ∧ d.Sound ∧ o = d.options.1 := by
  obtain ⟨d, ⟨m, rest⟩, hread, hproblem, ⟨⟨m', rest'⟩, hfinish⟩, ho⟩ := read_result_eq_ok.mp h
  obtain ⟨v, hdraft, htakes⟩ := (readsValues_draft text.toList 0 d rest).mp ⟨m, hread⟩
  have hblank := ((Reader.reads_finish rest m () rest').mp ⟨m', hfinish⟩).2
  exact ⟨v, d, ⟨rest, htakes, hblank⟩, hdraft, Draft.problem?_eq_none.mp hproblem, ho⟩

/-- What a rewrite with options from a text puts into a program is what the text says. A class that
is put in or imported is that of the first definition of the class that it replaces; it is a plain
identifier, and the path of its import is not blank. A key that is put in is that of lists of
providers or one of the two of long forms, and these are plain identifiers. Nothing else comes in:
behind the imports are the items that were there, and each node in them has its origin. -/
theorem read_rewrite_origins {text : String} {o : Options}
    (h : (Options.read text).result = .ok o) :
    ∃ (v : Value) (d : Draft), v.Spells text ∧ v.IsDraft d ∧
      (o.bindKey = d.bindKey ∧ Text.IsIdentifier o.bindKey) ∧
      (o.implementKey = d.implementKey ∧ Text.IsIdentifier o.implementKey) ∧
      (∀ r ∈ o.table.entries, o.table.find? r.original = some r) ∧
      (∀ name r, o.table.find? name = some r ↔ r.IsFirstFor name d.replacements) ∧
      ∀ (file : String) (p : Program),
        let out := o.rewrite file p
        let before := Node.list p.body.items
        let after := Node.list out.program.body.items
        (∀ s ∈ out.substitutions, ∃ x ∈ o.vocabulary.candidates p, ∃ r : Replacement,
          r.IsFirstFor x.name d.replacements ∧ s = ⟨file, x.name, r.className, r.modulePath⟩ ∧
          Text.IsIdentifier s.className ∧
          ∃ c ∈ s.modulePath.toList, Text.isBlankChar c = false) ∧
        (∀ n ∈ o.prepended file p, ∃ s ∈ out.substitutions,
          n = (Import.mk s.className s.modulePath).declaration ∧
            n.ImportsClass s.className s.modulePath) ∧
        (∃ items, out.program.body = { p.body with items := o.prepended file p ++ items } ∧
          Redecorated o.image before (.list items)) ∧
        (∀ x : Node, x.isName = true → x.Occurs after → x.Occurs before ∨
          (∃ s ∈ out.substitutions, x = .ident (.made s.className)) ∨
          ∃ name ∈ ["providers", o.bindKey, o.implementKey], x = .key .nowhere name) ∧
        ∀ x : Node, x.Occurs after → (∃ n ∈ o.prepended file p, x.Occurs n) ∨ o.Origin p x := by
  obtain ⟨v, d, hspells, hdraft, hsound, rfl⟩ := draft_of_read h
  have hfirst : ∀ name r, d.options.1.table.find? name = some r ↔
      r.IsFirstFor name d.replacements := fun name r => Table.find?_ofList_eq_some
  refine ⟨v, d, hspells, hdraft, ⟨rfl, hsound.bindKey⟩, ⟨rfl, hsound.implementKey⟩,
    fun r hr => Table.find?_of_mem hr, hfirst, fun file p => ⟨fun s hs => ?_,
      fun n hn => import_of_mem_prepended hn, ⟨(d.options.1.walk p).value, ?_,
        d.options.1.redecorated_walk p⟩, fun x hname hx => name_of_occurs_rewrite hname hx,
      fun x hx => occurs_prepended_or_origin hx⟩⟩
  · obtain ⟨e, he, x, r, hx, hr, rfl⟩ := mem_substitutions hs
    have hmem : r ∈ d.replacements := ((hfirst _ r).mp hr).mem
    refine ⟨x, List.mem_filterMap.mpr ⟨e, he, hx⟩, r, (hfirst _ r).mp hr, ?_,
      hsound.classNames r hmem, hsound.modulePaths r hmem⟩
    rw [Replacement.substitution, Table.original_of_find? hr]
  · rw [prepended_eq, body_rewrite]

/-- Two definitions of `A`, and another key for tokens: the class that is put in is that of the first
definition, and the names that are new are it and the keys. -/
theorem read_rewrite_origins_of_two_definitions :
    let text := "\x7b\"replacements\":[[\"A\",[\"B\",\"b\"]],[\"A\",[\"C\",\"c\"]]],\"bindKey\":\"bind\"\x7d"
    let r : Replacement := ⟨"A", "B", "b"⟩
    let p : Program := .listing "Component" [.argument none (.ident (.made "A"))]
    ∃ (o : Options) (d : Draft), (Options.read text).result = .ok o ∧ o.bindKey = "bind" ∧
      r.IsFirstFor "A" d.replacements ∧
      r.substitution "a.ts" ∈ (o.rewrite "a.ts" p).substitutions ∧
      ∀ x : Node, x.isName = true → x.Occurs (.list (o.rewrite "a.ts" p).program.body.items) →
        x.Occurs (.list p.body.items) ∨
        (∃ s ∈ (o.rewrite "a.ts" p).substitutions, x = .ident (.made s.className)) ∨
        ∃ name ∈ ["providers", "bind", "useClass"], x = .key .nowhere name := by
  intro text r p
  have haccepted : (Options.read text).result.toOption.map
      (fun o => (o.bindKey, o.implementKey, o.decorators, o.table.find? "A")) =
        some ("bind", "useClass", ["Component", "Directive"], some r) := by decide +kernel
  obtain ⟨o, hread, hsettings⟩ := exists_of_settings haccepted
  simp only [Prod.mk.injEq] at hsettings
  obtain ⟨hbind, himplement, hdecorators, hfind⟩ := hsettings
  obtain ⟨v, d, -, -, -, -, -, hfirst, hrewrite⟩ := read_rewrite_origins hread
  obtain ⟨-, -, -, hnames, -⟩ := hrewrite "a.ts" p
  rw [hbind, himplement] at hnames
  have hlisted : "Component" ∈ o.decorators := hdecorators ▸ List.mem_cons_self
  have helements : o.vocabulary.elements p = [.argument none (.ident (.made "A"))] :=
    Vocabulary.elements_listing hlisted _
  have hused : r.substitution "a.ts" ∈ (o.rewrite "a.ts" p).substitutions :=
    substitution_mem (helements ▸ List.mem_cons_self) rfl hfind "a.ts"
  exact ⟨o, d, hread, hbind, (hfirst "A" r).mp hfind, hused, hnames⟩

end Options

end Rebind
