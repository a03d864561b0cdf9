import Rebind.Proofs.Rewrite.TwoPasses

/-!
# When a second rewrite changes nothing

A second rewrite with the same options looks up what the first one has put in.
If the table has nothing to say about the classes that it puts in, two looks
come to one, and `Chains` says that two rewrites come to one as well. This takes
that the second rewrite finds the class and not the token, which the two keys of
a provider tell apart.

If the table does have something to say, or the keys do not tell them apart, one
small program is enough to see it: a class with a decorator of the right name
and the short form of one provider.
-/

namespace Rebind

namespace Table

theorem find?_of_isEmpty {t : Table} (h : t.isEmpty = true) (name : String) :
    t.find? name = none := by
  rw [isEmpty, List.isEmpty_iff] at h
  rw [find?, h]
  rfl

theorem exists_find?_of_not_isEmpty {t : Table} (h : t.isEmpty = false) :
    ∃ name r, t.find? name = some r := by
  cases hentries : t.entries with
  | nil =>
      rw [isEmpty, hentries] at h
      cases h
  | cons r rs =>
      refine ⟨r.original, r, ?_⟩
      rw [find?, hentries]
      exact List.find?_cons_of_pos (beq_self_eq_true r.original)

end Table

/-! ## A small program with one candidate -/

/-- The decorator `@name({ providers: elements })`. -/
def Node.providing (name : String) (elements : List Node) : Node :=
  MetadataFrame.fill ⟨.nowhere, .nowhere, 0, .made name, .nowhere, .absent⟩
    (Node.providersProperty elements)

/-- The module `@decorator({ providers: [token] }) class Unit {}`. -/
def Program.providing (decorator token : String) : Program :=
  .module ⟨.nowhere,
    [.classDecl .declaration
      [("span", Span.nowhere.toJson), ("ctxt", .ofNat 0), ("declare", .bool false),
       ("isAbstract", .bool false)]
      [.providing decorator [.argument none (.ident (.made token))]]
      [("identifier", .ident (.made "Unit")), ("body", .list []), ("superClass", .absent),
       ("typeParams", .absent), ("superTypeParams", .absent), ("implements", .list [])]],
    none⟩

theorem Vocabulary.elements_providing {v : Vocabulary} {decorator : String}
    (h : decorator ∈ v.decorators) (token : String) :
    v.elements (.providing decorator token) = [.argument none (.ident (.made token))] := by
  have hname : v.decorators.contains decorator = true := List.contains_iff_mem.mpr h
  have hmetadata : (Node.providing decorator [.argument none (.ident (.made token))]).metadata?
      v.decorators = some _ := MetadataFrame.metadata?_fill hname _
  rw [elements, Program.providing, Program.body, List.flatMap_singleton, ofTree,
    Node.classes_of_class rfl, List.flatMap_singleton, Node.decorators, List.flatMap_singleton,
    ofDecorator, hmetadata]
  exact Node.providerElements_providersProperty _

namespace Options

theorem substitutions_eq_nil {o : Options} {file : String} {p : Program} :
    (o.rewrite file p).substitutions = [] ↔
      ∀ x ∈ o.vocabulary.candidates p, o.table.find? x.name = none := by
  rw [substitutions_rewrite, List.map_eq_nil_iff, hits_walk, List.filterMap_eq_nil_iff]

theorem program_rewrite_eq_self {o : Options} {file : String} {p : Program}
    (hwalk : (o.walk p).value = p.body.items)
    (hnone : (o.rewrite file p).substitutions = []) : (o.rewrite file p).program = p := by
  refine Program.eq_of_kind_of_body ?_ ?_
  · rw [kind_rewrite, if_pos hnone]
  · rw [body_rewrite, hnone, imports_nil, hwalk]
    rfl

/-- What a second rewrite finds in the small program is the class that the first
one has put in, or the token if the keys are the same. -/
theorem candidates_rewrite_providing {o : Options} {decorator : String}
    (h : decorator ∈ o.decorators) (file token : String) :
    o.vocabulary.candidates (o.rewrite file (.providing decorator token)).program =
      [if o.bindKey = o.implementKey then .made token else o.lookup (.made token)] := by
  rw [Vocabulary.candidates, elements_rewrite, Vocabulary.elements_providing h, List.map_singleton,
    value_rewriteProvider_short, List.filterMap_cons, candidate?_provider]
  rfl

/-- Whether a second rewrite changes nothing and replaces nothing, whatever the
program and the file. -/
def Idempotent (o : Options) : Prop :=
  ∀ (p : Program) (file : String),
    (o.rewrite file (o.rewrite file p).program).program = (o.rewrite file p).program ∧
      (o.rewrite file (o.rewrite file p).program).substitutions = []

/-- Whether the table has nothing to say about the classes that it puts in, and
the keys tell them from the tokens. -/
def Settled (o : Options) : Prop :=
  ∀ name r, o.table.find? name = some r →
    o.bindKey ≠ o.implementKey ∧ o.table.find? r.className = none

/-! ## Options without decorators -/

theorem metadata?_of_decorators {o : Options} (h : o.decorators = []) (d : Node) :
    d.metadata? o.decorators = none := by
  cases hd : d.metadata? o.decorators with
  | none => rfl
  | some m =>
      have hname := (Node.eq_fill_of_metadata? hd).2
      rw [h] at hname
      cases hname

theorem walk_of_decorators {o : Options} (h : o.decorators = []) (p : Program) :
    (o.walk p).value = p.body.items := by
  rw [walk, value_rewriteNodes]
  refine List.map_id'' (fun n => Node.value_rewrite_eq_self fun c _ d _ => ?_) _
  exact (rewriteDecorator_of_none (metadata?_of_decorators h d)).1

theorem elements_of_decorators {o : Options} (h : o.decorators = []) (p : Program) :
    o.vocabulary.elements p = [] := by
  rw [Vocabulary.elements, List.flatMap_eq_nil_iff]
  intro n _
  rw [Vocabulary.ofTree, List.flatMap_eq_nil_iff]
  intro c _
  rw [List.flatMap_eq_nil_iff]
  intro d _
  have hnone : d.metadata? o.vocabulary.decorators = none := metadata?_of_decorators h d
  rw [Vocabulary.ofDecorator, hnone]

theorem idempotent_of_decorators {o : Options} (h : o.decorators = []) : o.Idempotent := by
  intro p file
  have hnone : ∀ q, (o.rewrite file q).substitutions = [] := by
    intro q
    rw [substitutions_eq_nil, Vocabulary.candidates, elements_of_decorators h]
    exact fun x hx => absurd hx List.not_mem_nil
  exact ⟨program_rewrite_eq_self (walk_of_decorators h _) (hnone _), hnone _⟩

/-! ## Settled options -/

theorem lookup_lookup_of_settled {o : Options} (h : o.Settled) (i : Ident) :
    o.table.find? (o.lookup i).name = none := by
  cases hi : o.table.find? i.name with
  | none => rw [lookup_of_none hi, hi]
  | some r =>
      rw [lookup_of_some hi]
      exact (h i.name r hi).2

theorem chains_of_settled {o : Options} (h : o.Settled) : Chains o o o where
  first := rfl
  second := rfl
  lookup_lookup i := lookup_of_none (lookup_lookup_of_settled h i)
  keys := by
    by_cases hkeys : o.bindKey = o.implementKey
    · refine Or.inr fun i => lookup_of_none ?_
      cases hi : o.table.find? i.name with
      | none => rfl
      | some r => exact absurd hkeys (h i.name r hi).1
    · exact Or.inl hkeys

theorem find?_candidate_of_settled {o : Options} (h : o.Settled) {file : String} {p : Program}
    {x : Ident} (hx : x ∈ o.vocabulary.candidates (o.rewrite file p).program) :
    o.table.find? x.name = none := by
  cases hfind : o.table.find? x.name with
  | none => rfl
  | some r =>
      rw [candidates_rewrite (h x.name r hfind).1, List.mem_map] at hx
      obtain ⟨i, -, rfl⟩ := hx
      rw [← hfind]
      exact lookup_lookup_of_settled h i

theorem idempotent_of_settled {o : Options} (h : o.Settled) : o.Idempotent := by
  intro p file
  have hnone : (o.rewrite file (o.rewrite file p).program).substitutions = [] :=
    substitutions_eq_nil.mpr fun x hx => find?_candidate_of_settled h hx
  refine ⟨program_rewrite_eq_self ?_ hnone, hnone⟩
  rw [(chains_of_settled h).walk, o.body_rewrite]

/-! ## Options that are not settled -/

theorem settled_of_idempotent {o : Options} (h : o.Idempotent) (hnames : o.decorators ≠ []) :
    o.Settled := by
  obtain ⟨decorator, hdecorator⟩ := List.exists_mem_of_ne_nil _ hnames
  intro name r hr
  have hsecond := substitutions_eq_nil.mp (h (.providing decorator name) "").2
  rw [candidates_rewrite_providing hdecorator] at hsecond
  have hfind := hsecond _ List.mem_cons_self
  by_cases hkeys : o.bindKey = o.implementKey
  · rw [if_pos hkeys] at hfind
    rw [Ident.made, hr] at hfind
    cases hfind
  · rw [if_neg hkeys, lookup_of_some hr] at hfind
    exact ⟨hkeys, hfind⟩

/-- A second rewrite changes nothing, for any program, just if no decorator is
looked at or the options are settled. This is so if the table is empty. It is not
so if a decorator is looked at and the table has a class for itself, or for a
class that it puts in, or has any class and the two keys are the same. -/
theorem idempotent_iff (o : Options) :
    (o.Idempotent ↔ o.decorators = [] ∨
      ∀ name r, o.table.find? name = some r →
        o.bindKey ≠ o.implementKey ∧ o.table.find? r.className = none) ∧
    (o.table.isEmpty = true → o.Idempotent) ∧
    (o.decorators ≠ [] →
      (∃ name r, o.table.find? name = some r ∧ r.className = name) ∨
      (∃ name r r', o.table.find? name = some r ∧ o.table.find? r.className = some r') ∨
      (o.table.isEmpty = false ∧ o.bindKey = o.implementKey) →
      ¬ o.Idempotent) := by
  refine ⟨⟨fun h => ?_, ?_⟩, fun hempty => ?_, fun hnames hbad h => ?_⟩
  · by_cases hnames : o.decorators = []
    · exact Or.inl hnames
    · exact Or.inr (settled_of_idempotent h hnames)
  · rintro (hnames | hsettled)
    · exact idempotent_of_decorators hnames
    · exact idempotent_of_settled hsettled
  · refine idempotent_of_settled fun name r hr => ?_
    rw [Table.find?_of_isEmpty hempty] at hr
    cases hr
  · have hsettled := settled_of_idempotent h hnames
    rcases hbad with ⟨name, r, hr, rfl⟩ | ⟨name, r, r', hr, hr'⟩ | ⟨hsome, hkeys⟩
    · have hnone := (hsettled _ r hr).2
      rw [hr] at hnone
      cases hnone
    · have hnone := (hsettled name r hr).2
      rw [hr'] at hnone
      cases hnone
    · obtain ⟨name, r, hr⟩ := Table.exists_find?_of_not_isEmpty hsome
      exact (hsettled name r hr).1 hkeys

/-- With the usual options a second rewrite changes nothing, and with `A` to `B`
and `B` to `C` in the table it does. -/
theorem idempotent_usual_not_chained :
    ({} : Options).Idempotent ∧
      ¬ ({ table := (Table.ofList [⟨"A", "B", "./b"⟩, ⟨"B", "C", "./c"⟩]).1 } :
        Options).Idempotent :=
  ⟨(idempotent_iff {}).2.1 rfl,
    (idempotent_iff _).2.2 (List.cons_ne_nil _ _)
      (Or.inr (Or.inl ⟨"A", ⟨"A", "B", "./b"⟩, ⟨"B", "C", "./c"⟩, rfl, rfl⟩))⟩

end Options

end Rebind
