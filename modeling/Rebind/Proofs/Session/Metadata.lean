import Rebind.Proofs.Session.Threaded

/-!
# How metadata is put together again

The lists of providers are taken out of metadata in one pass over its properties, and their
elements are visited on the way, each in the session that the one before has left behind. If there
is no list at all, the pass is not made.

`Sorts` is the pass, told without a test for lists of providers: what such a list looks like is
said by two shapes, and every other shape of a property is kept. That the visits of the elements
may be put together has been seen already, with the session in hand.
-/

namespace Rebind

/-- A property with the key `providers`, as an identifier or as a string, and an array literal with
these elements for its value. -/
inductive Node.HoldsProviders : Node → List Node → Prop
  | name (span arraySpan : Span) (es : List Node) :
      HoldsProviders (.keyValue (.key span "providers") (.array arraySpan es)) es
  | string (span arraySpan : Span) (raw : Option String) (es : List Node) :
      HoldsProviders (.keyValue (.string span "providers" raw) (.array arraySpan es)) es

/-- One pass over properties that takes out the lists of providers and keeps the others. -/
inductive Node.Sorts : List Node → List Node → List (List Node) → Prop
  | nil : Sorts [] [] []
  | list {p : Node} {es : List Node} {ps others : List Node} {lists : List (List Node)}
      (hp : p.HoldsProviders es) (h : Sorts ps others lists) :
      Sorts (p :: ps) others (es :: lists)
  | other {p : Node} {ps others : List Node} {lists : List (List Node)}
      (hp : ∀ es, ¬ p.HoldsProviders es) (h : Sorts ps others lists) :
      Sorts (p :: ps) (p :: others) lists

namespace Node

theorem holdsProviders_iff {p : Node} {es : List Node} :
    p.HoldsProviders es ↔ p.providers? = some es := by
  constructor
  · intro h
    cases h <;> rfl
  · intro h
    obtain ⟨k, span, rfl, hk⟩ := exists_of_providers? h
    cases k with
    | key keySpan n =>
        obtain rfl : n = "providers" := by simpa [isKey] using hk
        exact .name keySpan span es
    | string keySpan value raw =>
        obtain rfl : value = "providers" := by simpa [isKey] using hk
        exact .string keySpan span raw es
    | _ => cases hk

theorem not_holdsProviders_iff {p : Node} :
    (∀ es, ¬ p.HoldsProviders es) ↔ p.providers? = none := by
  simp only [holdsProviders_iff]
  exact Option.eq_none_iff_forall_ne_some.symm

theorem sorts_iff {ps others : List Node} {lists : List (List Node)} :
    Sorts ps others lists ↔
      others = withoutProviders ps ∧ lists = ps.filterMap (·.providers?) := by
  constructor
  · intro h
    induction h with
    | nil => exact ⟨rfl, rfl⟩
    | list hp _ ih =>
        have hlist := holdsProviders_iff.mp hp
        rw [ih.1, ih.2, withoutProviders, withoutProviders, List.filter_cons, hlist,
          List.filterMap_cons, hlist]
        exact ⟨rfl, rfl⟩
    | other hp _ ih =>
        have hother := not_holdsProviders_iff.mp hp
        rw [ih.1, ih.2, withoutProviders, withoutProviders, List.filter_cons, hother,
          List.filterMap_cons, hother]
        exact ⟨rfl, rfl⟩
  · intro h
    obtain ⟨hothers, hlists⟩ := h
    subst hothers hlists
    induction ps with
    | nil => exact .nil
    | cons p ps ih =>
        rw [withoutProviders, List.filter_cons, ← withoutProviders, List.filterMap_cons]
        cases hp : p.providers? with
        | none => exact .other (not_holdsProviders_iff.mpr hp) ih
        | some es => exact .list (holdsProviders_iff.mpr hp) ih

/-- The lists of providers in metadata that was put together are at its end. -/
theorem eq_last_of_holdsProviders {ps made es : List Node} {i : Nat} {p : Node}
    (hi : (withoutProviders ps ++ providersProperty made)[i]? = some p)
    (hp : p.HoldsProviders es) :
    i + 1 = (withoutProviders ps ++ providersProperty made).length := by
  rcases Nat.lt_or_ge i (withoutProviders ps).length with hlt | hge
  · rw [List.getElem?_append_left hlt] at hi
    have hnone := providers?_of_mem_withoutProviders p (List.mem_of_getElem? hi)
    exact absurd hp (not_holdsProviders_iff.mpr hnone es)
  · rw [List.getElem?_append_right hge] at hi
    have hlt := (List.getElem?_eq_some_iff.mp hi).1
    have hone : (providersProperty made).length ≤ 1 := by
      rw [providersProperty]
      split <;> simp
    rw [List.length_append]
    omega

end Node

namespace Session

/-- Visits the properties of metadata. -/
def visitMetadata (s : Session) (ps : List Node) : Visit (List Node) :=
  s.absorb (s.options.rewriteMetadata ps)

/-- Visits an element of a list of providers. -/
def visitProvider (s : Session) (e : Node) : Visit Node :=
  s.absorb (s.options.rewriteProvider e)

/-- Visits elements one after the other, each in the session that the one before leaves. -/
def visitProviders (s : Session) : List Node → Visit (List Node)
  | [] => ⟨[], s, []⟩
  | e :: es =>
      let v := s.visitProvider e
      let w := v.session.visitProviders es
      ⟨v.result :: w.result, w.session, v.events ++ w.events⟩

theorem absorb_pure {α : Type} (s : Session) (a : α) : s.absorb (pure a) = ⟨a, s, []⟩ := rfl

theorem visitProviders_threaded (s : Session) (es : List Node) :
    s.visitProviders es = (InSession.forEach InSession.rewriteProvider es).run s := by
  induction es generalizing s with
  | nil => rfl
  | cons e es ih =>
      have helement : s.visitProvider e = (InSession.rewriteProvider e).run s :=
        (InSession.follows_rewriteProvider e s rfl).symm
      rw [visitProviders, helement, ih, InSession.run_forEach_cons]

/-- The one pass over the properties, with the session in hand, is the visit of metadata. -/
theorem visitMetadata_threaded (s : Session) (ps : List Node) :
    s.visitMetadata ps = (InSession.rewriteMetadata ps).run s :=
  (InSession.follows_rewriteMetadata ps s rfl).symm

/-- All elements see the options and the file of the session before the first of them. -/
theorem visitProviders_eq (s : Session) (es : List Node) :
    s.visitProviders es = s.absorb (Noted.forEach s.options.rewriteProvider es) := by
  rw [visitProviders_threaded]
  exact InSession.Follows.forEach InSession.follows_rewriteProvider es s rfl

theorem result_visitProviders (s : Session) (es : List Node) :
    (s.visitProviders es).result = es.map fun e => (s.options.rewriteProvider e).value := by
  rw [visitProviders_eq, absorb, Noted.value_forEach]

theorem visitMetadata_of_none {s : Session} {ps : List Node}
    (h : ∀ p ∈ ps, p.providers? = none) : s.visitMetadata ps = ⟨ps, s, []⟩ := by
  have hany : ¬ ps.any (·.isProvidersArray) = true := by
    simpa [Node.isProvidersArray_eq] using h
  rw [visitMetadata, Options.rewriteMetadata, if_neg hany, absorb_pure]

/-! ## The visit of metadata

Its session and its events are those of the elements that are in it. -/

section Metadata

variable (s : Session) (ps : List Node)

theorem visitMetadata_accounts :
    (s.visitMetadata ps).session = (s.visitProviders (Node.providerElements ps)).session ∧
      (s.visitMetadata ps).events = (s.visitProviders (Node.providerElements ps)).events := by
  have hnotes : (s.options.rewriteMetadata ps).notes =
      (Noted.forEach s.options.rewriteProvider (Node.providerElements ps)).notes := by
    rw [Options.notes_rewriteMetadata, Noted.notes_forEach, List.map_filterMap,
      List.filterMap_eq_flatMap_toList]
    exact List.flatMap_congr fun e _ => (s.options.notes_rewriteProvider e).symm
  rw [visitMetadata, visitProviders_eq, absorb, absorb, hnotes]
  exact ⟨rfl, rfl⟩

theorem result_visitMetadata :
    (s.visitMetadata ps).result = Node.withoutProviders ps ++
      Node.providersProperty (s.visitProviders (Node.providerElements ps)).result := by
  rw [result_visitProviders]
  exact s.options.value_rewriteMetadata ps

theorem providersProperty_visitProviders (es : List Node) :
    Node.providersProperty (s.visitProviders es).result =
      if es = [] then []
      else [.keyValue (.key .nowhere "providers")
        (.array .nowhere (s.visitProviders es).result)] := by
  cases es with
  | nil => rfl
  | cons e es => rfl

end Metadata

/-- Metadata without a list of providers is left alone, and so is the session. Otherwise the other
properties stay in their order, and behind them comes one list with the elements of all lists, each
of them visited in its turn; if there are no elements, there is no list either. Holes and spread
elements keep their places in it. There is no other list of providers. -/
theorem visitMetadata_reassembles (s : Session) (ps : List Node) :
    let v := s.visitMetadata ps
    ((∀ p ∈ ps, ∀ es, ¬ p.HoldsProviders es) → v = ⟨ps, s, []⟩) ∧
    ∃ others lists,
      (∀ others' lists', Node.Sorts ps others' lists' ↔ others' = others ∧ lists' = lists) ∧
      (let w := s.visitProviders lists.flatten
       v.session = w.session ∧ v.events = w.events ∧
       v.result = others ++ (if lists.flatten = [] then []
         else [.keyValue (.key .nowhere "providers") (.array .nowhere w.result)]) ∧
       w.result.length = lists.foldr (fun es total => es.length + total) 0 ∧
       ∀ (i : Nat) (e : Node), lists.flatten[i]? = some e →
         e = .absent ∨ (∃ span expression, e = .argument (some span) expression) →
         w.result[i]? = some e) ∧
      ∀ (i : Nat) (p : Node) (es : List Node), v.result[i]? = some p → p.HoldsProviders es →
        i + 1 = v.result.length := by
  intro v
  have hresult : v.result = _ := s.result_visitMetadata ps
  obtain ⟨hsession, hevents⟩ := s.visitMetadata_accounts ps
  have hflatten := Node.flatten_filterMap_providers? ps
  refine ⟨fun hnone => ?_, Node.withoutProviders ps, ps.filterMap (·.providers?),
    fun _ _ => Node.sorts_iff, ?_, ?_⟩
  · exact visitMetadata_of_none fun p hp => Node.not_holdsProviders_iff.mp (hnone p hp)
  · rw [hflatten]
    refine ⟨hsession, hevents, ?_, ?_, ?_⟩
    · rw [hresult, providersProperty_visitProviders]
    · rw [result_visitProviders, List.length_map, ← hflatten, List.length_flatten, List.sum,
        List.foldr_map]
    · intro i e he hkept
      rw [result_visitProviders, List.getElem?_map, he, Option.map_some]
      obtain hhole | ⟨span, expression, hspread⟩ := hkept
      · rw [hhole]
        rfl
      · rw [hspread]
        rfl
  · intro i p es hi hp
    rw [hresult] at hi ⊢
    exact Node.eq_last_of_holdsProviders hi hp

/-- Two lists under two spellings of the key, and a property that only looks like one: the hole and
the spread element come through, and the class between them is replaced. -/
theorem visitMetadata_of_two_lists :
    let s : Session :=
      { options := { table := (Table.ofList [⟨"A", "B", "./b"⟩]).1 }, file := "a.ts" }
    let spread : Node := .argument (some ⟨3, 6⟩) (.ident (.made "more"))
    let short : Node := .argument none (.ident (.made "A"))
    let lookalike : Node := .ident (.made "providers")
    let ps : List Node :=
      [.keyValue (.key .nowhere "providers") (.array .nowhere [.absent, short]), lookalike,
       .keyValue (.string .nowhere "providers" none) (.array .nowhere [spread])]
    let w := s.visitProviders [.absent, short, spread]
    (s.visitMetadata ps).result =
      [lookalike, .keyValue (.key .nowhere "providers") (.array .nowhere w.result)] ∧
    w.result[0]? = some .absent ∧ w.result[2]? = some spread ∧
    (s.visitMetadata ps).session.substitutions = [⟨"a.ts", "A", "B", "./b"⟩] ∧
    s.visitMetadata [lookalike] = ⟨[lookalike], s, []⟩ := by
  intro s spread short lookalike ps w
  have hlookalike : ∀ es, ¬ lookalike.HoldsProviders es := Node.not_holdsProviders_iff.mpr rfl
  have hsorts : Node.Sorts ps [lookalike] [[.absent, short], [spread]] :=
    .list (.name ..) (.other hlookalike (.list (.string ..) .nil))
  obtain ⟨-, others, lists, hunique, ⟨hsession, -, hresult, -, hkept⟩, -⟩ :=
    s.visitMetadata_reassembles ps
  obtain ⟨rfl, rfl⟩ := (hunique _ _).mp hsorts
  refine ⟨hresult, hkept 0 _ rfl (Or.inl rfl), hkept 2 _ rfl (Or.inr ⟨_, _, rfl⟩), ?_, ?_⟩
  · rw [hsession]
    decide
  · refine (s.visitMetadata_reassembles [lookalike]).1 fun p hp => ?_
    rw [List.mem_singleton.mp hp]
    exact hlookalike

end Session

end Rebind
