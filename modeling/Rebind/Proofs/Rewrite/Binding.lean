import Mathlib.Data.List.Nodup
import Rebind.Proofs.Rewrite.Idempotence

/-!
# What the imports in front of a program bind

Each import binds the class that it imports, under the name of the class. Two
imports of one name are an error in the module, and whether there can be two is
a matter of the options. Imports that are written once are distinct as pairs of
a class and a path, so a name comes twice just if the table has the class from
two paths; imports that are written as often as they are needed come twice as
soon as a class is replaced twice.

What is bound is what is used: the classes that were put into the program are
those that the imports bind, and no import stands there for nothing.
-/

namespace Rebind

/-- The nodes that a rewrite put in front of the items of the program. -/
def Options.prepended (o : Options) (file : String) (p : Program) : List Node :=
  let items := (o.rewrite file p).program.body.items
  items.take (items.length - p.body.items.length)

theorem Table.find?_of_mem {t : Table} {r : Replacement} (h : r ∈ t.entries) :
    t.find? r.original = some r := by
  cases hfind : t.find? r.original with
  | none => exact absurd (List.mem_map_of_mem h) (not_mem_of_find?_eq_none hfind)
  | some r' =>
      have hmem : r' ∈ t.entries := List.mem_of_find?_eq_some hfind
      rw [List.inj_on_of_nodup_map t.distinct hmem h (original_of_find? hfind)]

/-! ## A small program with several elements -/

/-- The small module with these elements in its list of providers. -/
def Program.listing (decorator : String) (elements : List Node) : Program :=
  let small := (Program.providing decorator "").body
  .module { small with
    items := small.items.map (Node.mapDecorators fun _ => .providing decorator elements) }

theorem Vocabulary.elements_listing {v : Vocabulary} {decorator : String}
    (h : decorator ∈ v.decorators) (elements : List Node) :
    v.elements (.listing decorator elements) = elements := by
  have hname : v.decorators.contains decorator = true := List.contains_iff_mem.mpr h
  have hmetadata : (Node.providing decorator elements).metadata? v.decorators = some _ :=
    MetadataFrame.metadata?_fill hname _
  rw [Vocabulary.elements, Program.listing, Program.body, Program.providing, Program.body,
    List.map_singleton, List.flatMap_singleton, ofTree, Node.mapDecorators,
    Node.classes_of_class rfl, List.flatMap_singleton, Node.decorators, List.map_singleton,
    List.flatMap_singleton, ofDecorator, hmetadata]
  exact Node.providerElements_providersProperty _

namespace Options

theorem prepended_eq (o : Options) (file : String) (p : Program) :
    o.prepended file p = (o.imports (o.rewrite file p).substitutions).map Import.declaration := by
  have hlength : (o.walk p).value.length = p.body.items.length := by
    rw [walk, value_rewriteNodes, List.length_map]
  rw [prepended, body_rewrite]
  simp only [List.length_append, hlength, Nat.add_sub_cancel]
  exact List.take_left

theorem localNames_prepended (o : Options) (file : String) (p : Program) :
    (o.prepended file p).flatMap Node.localNames =
      (o.imports (o.rewrite file p).substitutions).map Import.className := by
  rw [prepended_eq, List.flatMap_map, ← List.flatMap_pure_eq_map]
  exact List.flatMap_congr fun i _ => i.importsClass_declaration.localNames

/-! ## Substitutions and the table -/

theorem mem_substitutions {o : Options} {file : String} {p : Program} {s : Substitution}
    (h : s ∈ (o.rewrite file p).substitutions) :
    ∃ e ∈ o.vocabulary.elements p, ∃ x r, o.vocabulary.candidate? e = some x ∧
      o.table.find? x.name = some r ∧ s = r.substitution file := by
  rw [substitutions_rewrite, hits_walk, List.mem_map] at h
  obtain ⟨r, hr, rfl⟩ := h
  obtain ⟨x, hx, hfind⟩ := List.mem_filterMap.mp hr
  obtain ⟨e, he, hcandidate⟩ := List.mem_filterMap.mp hx
  exact ⟨e, he, x, r, hcandidate, hfind, rfl⟩

theorem substitution_mem {o : Options} {p : Program} {e : Node} {x : Ident} {r : Replacement}
    (he : e ∈ o.vocabulary.elements p) (hx : o.vocabulary.candidate? e = some x)
    (hr : o.table.find? x.name = some r) (file : String) :
    r.substitution file ∈ (o.rewrite file p).substitutions := by
  rw [substitutions_rewrite, hits_walk]
  refine List.mem_map_of_mem (List.mem_filterMap.mpr ⟨x, ?_, hr⟩)
  exact List.mem_filterMap.mpr ⟨e, he, hx⟩

theorem substitutions_listing {o : Options} {decorator : String} (h : decorator ∈ o.decorators)
    {rs : List Replacement} (hrs : ∀ r ∈ rs, r ∈ o.table.entries) (file : String) :
    (o.rewrite file (.listing decorator
        (rs.map fun r => .argument none (.ident (.made r.original))))).substitutions =
      rs.map (·.substitution file) := by
  have hcandidates : o.vocabulary.candidates (.listing decorator
      (rs.map fun r => .argument none (.ident (.made r.original)))) =
        rs.map fun r => .made r.original := by
    rw [Vocabulary.candidates, Vocabulary.elements_listing h, List.filterMap_map]
    exact congrFun (List.filterMap_eq_map (f := fun r : Replacement => Ident.made r.original)) rs
  rw [substitutions_rewrite, hits_walk, hcandidates, List.filterMap_map]
  congr 1
  refine (List.filterMap_congr fun r hr => ?_).trans List.filterMap_some
  exact Table.find?_of_mem (hrs r hr)

/-! ## Names that come twice -/

/-- Whether every class of the table comes from one path. -/
def OnePath (o : Options) : Prop :=
  ∀ r ∈ o.table.entries, ∀ r' ∈ o.table.entries,
    r.className = r'.className → r.modulePath = r'.modulePath

theorem nodup_localNames {o : Options} (hdedupe : o.dedupeImports = true) (hpath : o.OnePath)
    (file : String) (p : Program) : ((o.prepended file p).flatMap Node.localNames).Nodup := by
  have hentry : ∀ i ∈ o.imports (o.rewrite file p).substitutions,
      ∃ r ∈ o.table.entries, r.import = i := by
    intro i hi
    obtain ⟨s, hs, rfl⟩ := mem_imports.mp hi
    obtain ⟨-, -, x, r, -, hr, rfl⟩ := mem_substitutions hs
    exact ⟨r, List.mem_of_find?_eq_some hr, rfl⟩
  rw [localNames_prepended]
  refine (nodup_imports hdedupe _).map_on ?_
  intro i hi j hj hname
  obtain ⟨r, hr, rfl⟩ := hentry i hi
  obtain ⟨r', hr', rfl⟩ := hentry j hj
  exact congrArg₂ Import.mk hname (hpath r hr r' hr' hname)

theorem dedupes_of_nodup {o : Options} {decorator : String} (h : decorator ∈ o.decorators)
    {r : Replacement} (hr : r ∈ o.table.entries)
    (hnodup : ∀ (file : String) (p : Program),
      ((o.prepended file p).flatMap Node.localNames).Nodup) : o.dedupeImports = true := by
  by_contra hdedupe
  have htwice := hnodup "" (.listing decorator
    ([r, r].map fun r => .argument none (.ident (.made r.original))))
  rw [localNames_prepended, substitutions_listing h (by simpa using hr), imports,
    if_neg hdedupe] at htwice
  exact (List.nodup_cons.mp htwice).1 List.mem_cons_self

theorem onePath_of_nodup {o : Options} {decorator : String} (h : decorator ∈ o.decorators)
    (hnodup : ∀ (file : String) (p : Program),
      ((o.prepended file p).flatMap Node.localNames).Nodup) : o.OnePath := by
  intro r hr r' hr' hname
  by_contra hpath
  have hne : r.import ≠ r'.import := fun heq => hpath (congrArg Import.modulePath heq)
  have htwo := hnodup "" (.listing decorator
    ([r, r'].map fun r => .argument none (.ident (.made r.original))))
  have hpair : ([r, r'].map (·.substitution "")).map Substitution.import =
      [r.import, r'.import] := rfl
  have hnodup : [r.import, r'.import].Nodup := by simpa using hne
  rw [localNames_prepended, substitutions_listing h (by simp [hr, hr']),
    imports_of_nodup o (hpair ▸ hnodup), hpair] at htwo
  exact (List.nodup_cons.mp htwo).1 (List.mem_singleton.mpr hname)

theorem prepended_eq_nil {o : Options} (h : o.decorators = [] ∨ o.table.isEmpty = true)
    (file : String) (p : Program) : o.prepended file p = [] := by
  have hnone : (o.rewrite file p).substitutions = [] := by
    rw [substitutions_eq_nil]
    rcases h with hnames | hempty
    · rw [Vocabulary.candidates, elements_of_decorators hnames]
      exact fun x hx => absurd hx List.not_mem_nil
    · exact fun x _ => Table.find?_of_isEmpty hempty x.name
  rw [prepended_eq, hnone, imports_nil, List.map_nil]

/-- The names that the imports of a program bind are distinct, for every program,
just if no decorator is looked at, or nothing is replaced, or each import is
written once and each class comes from one path. Whatever the options are, a
class that was put in is imported under its own name from the path that the
table has for it, as a value and not for its type only, and each import is there
for a class that was put in. -/
theorem imports_bind_what_is_used (o : Options) :
    ((∀ (file : String) (p : Program), ((o.prepended file p).flatMap Node.localNames).Nodup) ↔
      o.decorators = [] ∨ o.table.isEmpty = true ∨
        o.dedupeImports = true ∧ ∀ r ∈ o.table.entries, ∀ r' ∈ o.table.entries,
          r.className = r'.className → r.modulePath = r'.modulePath) ∧
    ∀ (file : String) (p : Program),
      let out := (o.rewrite file p).program
      out.body.items = o.prepended file p ++ (o.walk p).value ∧
      (∀ (i : Nat) (e : Node) (x : Ident) (r : Replacement),
        (o.vocabulary.elements p)[i]? = some e → o.vocabulary.candidate? e = some x →
        o.table.find? x.name = some r →
          (o.vocabulary.elements out)[i]? = some (o.vocabulary.bound e (.made r.className)) ∧
          r.import.declaration ∈ o.prepended file p ∧
          r.import.declaration.ImportsClass r.className r.modulePath) ∧
      ∀ n ∈ o.prepended file p, ∃ (i : Nat) (e : Node) (x : Ident) (r : Replacement),
        (o.vocabulary.elements p)[i]? = some e ∧ o.vocabulary.candidate? e = some x ∧
        o.table.find? x.name = some r ∧
        (o.vocabulary.elements out)[i]? = some (o.vocabulary.bound e (.made r.className)) ∧
        n = r.import.declaration ∧ n.ImportsClass r.className r.modulePath := by
  have hused : ∀ {file : String} {p : Program} {i : Nat} {e : Node} {x : Ident} {r : Replacement},
      (o.vocabulary.elements p)[i]? = some e → o.vocabulary.candidate? e = some x →
      o.table.find? x.name = some r →
      (o.vocabulary.elements (o.rewrite file p).program)[i]? =
        some (o.vocabulary.bound e (.made r.className)) := by
    intro file p i e x r he hx hr
    rw [elements_rewrite, List.getElem?_map, he, Option.map_some, value_rewriteProvider, hx,
      ← lookup_of_some hr]
  refine ⟨⟨fun hnodup => ?_, ?_⟩, fun file p => ⟨?_, ?_, ?_⟩⟩
  · by_cases hnames : o.decorators = []
    · exact Or.inl hnames
    · obtain ⟨decorator, hdecorator⟩ := List.exists_mem_of_ne_nil _ hnames
      cases hentries : o.table.entries with
      | nil => exact Or.inr (Or.inl (List.isEmpty_iff.mpr hentries))
      | cons r rs =>
          have hr : r ∈ o.table.entries := hentries ▸ List.mem_cons_self
          exact Or.inr (Or.inr ⟨dedupes_of_nodup hdecorator hr hnodup,
            hentries ▸ onePath_of_nodup hdecorator hnodup⟩)
  · intro hcondition file p
    rcases hcondition with hnames | hempty | ⟨hdedupe, hpath⟩
    · rw [prepended_eq_nil (Or.inl hnames)]
      exact List.nodup_nil
    · rw [prepended_eq_nil (Or.inr hempty)]
      exact List.nodup_nil
    · exact nodup_localNames hdedupe hpath file p
  · rw [prepended_eq, body_rewrite]
  · intro i e x r he hx hr
    refine ⟨hused he hx hr, ?_, r.import.importsClass_declaration⟩
    rw [prepended_eq]
    refine List.mem_map_of_mem (mem_imports.mpr ⟨r.substitution file, ?_, rfl⟩)
    exact substitution_mem (List.mem_of_getElem? he) hx hr file
  · intro n hn
    rw [prepended_eq, List.mem_map] at hn
    obtain ⟨_, hmem, rfl⟩ := hn
    obtain ⟨s, hs, rfl⟩ := mem_imports.mp hmem
    obtain ⟨e, he, x, r, hx, hr, rfl⟩ := mem_substitutions hs
    obtain ⟨i, hi⟩ := List.mem_iff_getElem?.mp he
    exact ⟨i, e, x, r, hi, hx, hr, hused hi hx hr, rfl, r.import.importsClass_declaration⟩

/-- `B` for `A` from one path and for `C` from another: written once each, the two
imports of `B` clash, and both are used. With `A` alone in the table none clash. -/
theorem imports_bind_from_two_paths :
    let o : Options :=
      { table := (Table.ofList [⟨"A", "B", "./b"⟩, ⟨"C", "B", "./c"⟩]).1, dedupeImports := true }
    let o' : Options := { table := (Table.ofList [⟨"A", "B", "./b"⟩]).1, dedupeImports := true }
    let p : Program := .listing "Component"
      [.argument none (.ident (.made "A")), .argument none (.ident (.made "C"))]
    (¬ ∀ file p, ((o.prepended file p).flatMap Node.localNames).Nodup) ∧
    (∀ file p, ((o'.prepended file p).flatMap Node.localNames).Nodup) ∧
    (Import.mk "B" "./c").declaration ∈ o.prepended "a.ts" p ∧
    ∃ (i : Nat) (e : Node) (x : Ident), (o.vocabulary.elements p)[i]? = some e ∧
      o.vocabulary.candidate? e = some x ∧ (o.table.find? x.name).isSome = true := by
  intro o o' p
  have helement : (o.vocabulary.elements p)[1]? = some (.argument none (.ident (.made "C"))) := by
    rw [Vocabulary.elements_listing (by decide)]
    rfl
  obtain ⟨-, hbound, hused⟩ := (imports_bind_what_is_used o).2 "a.ts" p
  have hmem : (Import.mk "B" "./c").declaration ∈ o.prepended "a.ts" p :=
    (hbound 1 _ (.made "C") ⟨"C", "B", "./c"⟩ helement rfl rfl).2.1
  refine ⟨fun hnodup => ?_, ?_, hmem, ?_⟩
  · rcases (imports_bind_what_is_used o).1.mp hnodup with hnames | hempty | ⟨-, hpath⟩
    · cases hnames
    · cases hempty
    · have hsame := hpath ⟨"A", "B", "./b"⟩ (by decide) ⟨"C", "B", "./c"⟩ (by decide) rfl
      exact absurd hsame (by decide)
  · refine (imports_bind_what_is_used o').1.mpr (Or.inr (Or.inr ⟨rfl, ?_⟩))
    decide
  · obtain ⟨i, e, x, r, he, hx, hr, -⟩ := hused _ hmem
    exact ⟨i, e, x, he, hx, hr ▸ rfl⟩

end Options

end Rebind
