import Rebind.Proofs.Session.Metadata

/-!
# Where a provider in the long form is edited

The class of a provider stands under the first property with the key for it, and this property is
the only one that a rewrite may change. It changes it if everything fits: there is a property for
the token, there is one for the class, what stands there is an identifier, and the table has an
entry for it. `Edits` is the case where it does, with the properties before and behind the one that
is changed, and `Idle` lists the ways in which it may not.

The properties that follow the first one are not looked at, so that an identifier under the same key
further down does not count. The two cases shut each other out because there is one first property
at most, and between them nothing is left.
-/

namespace Rebind

namespace Node

/-- A key with this name, as an identifier or as a string. -/
inductive Spells (name : String) : Node → Prop
  | key (span : Span) : Spells name (.key span name)
  | string (span : Span) (raw : Option String) : Spells name (.string span name raw)

/-- A property with this name. It may be the short form of one, which is its own value. -/
inductive IsNamed (name : String) : Node → Prop
  | keyValue {k : Node} (value : Node) (hk : k.Spells name) : IsNamed name (.keyValue k value)
  | shorthand (i : Ident) (hi : i.name = name) : IsNamed name (.ident i)

/-- The first property with this key among others, with what stands before and behind it. -/
structure FirstUnder (name : String) (ps before : List Node) (k value : Node)
    (after : List Node) : Prop where
  eq : ps = before ++ .keyValue k value :: after
  key : k.Spells name
  first : ∀ k' value', .keyValue k' value' ∈ before → ¬ k'.Spells name

theorem spells_iff {name : String} {k : Node} : k.Spells name ↔ k.isKey name = true := by
  constructor
  · intro h
    cases h <;> exact beq_self_eq_true name
  · intro h
    cases k with
    | key span n =>
        obtain rfl : n = name := eq_of_beq h
        exact .key span
    | string span value raw =>
        obtain rfl : value = name := eq_of_beq h
        exact .string span raw
    | _ => cases h

theorem isNamed_iff {name : String} {p : Node} : p.IsNamed name ↔ p.isProperty name = true := by
  constructor
  · intro h
    cases h with
    | keyValue value hk => exact spells_iff.mp hk
    | shorthand i hi => exact beq_iff_eq.mpr hi
  · intro h
    cases p with
    | keyValue k value => exact .keyValue value (spells_iff.mpr h)
    | ident i => exact .shorthand i (eq_of_beq h)
    | _ => cases h

theorem isKeyed_eq_false_iff {name : String} {ps : List Node} :
    (∀ p ∈ ps, p.isKeyed name = false) ↔
      ∀ k value, .keyValue k value ∈ ps → ¬ k.Spells name := by
  constructor
  · intro h k value hmem hk
    have hkeyed := h _ hmem
    rw [isKeyed, spells_iff.mp hk] at hkeyed
    cases hkeyed
  · intro h p hp
    cases p with
    | keyValue k value => exact Bool.eq_false_iff.mpr fun hk => h k value hp (spells_iff.mpr hk)
    | _ => rfl

/-! ## The first property with a key -/

theorem FirstUnder.find?_eq {name : String} {ps before after : List Node} {k value : Node}
    (h : FirstUnder name ps before k value after) :
    ps.find? (·.isKeyed name) = some (.keyValue k value) := by
  rw [h.eq, List.find?_eq_some_iff_append]
  refine ⟨spells_iff.mp h.key, before, after, rfl, fun p hp => ?_⟩
  rw [isKeyed_eq_false_iff.mpr h.first p hp]
  rfl

theorem FirstUnder.value_unique {name : String} {ps before after before' after' : List Node}
    {k value k' value' : Node} (h : FirstUnder name ps before k value after)
    (h' : FirstUnder name ps before' k' value' after') : value = value' := by
  have hfound := h.find?_eq.symm.trans h'.find?_eq
  cases hfound
  rfl

theorem exists_firstUnder_or_none (name : String) (ps : List Node) :
    (∃ before k value after, FirstUnder name ps before k value after) ∨
      ∀ k value, .keyValue k value ∈ ps → ¬ k.Spells name := by
  cases hfind : ps.find? (·.isKeyed name) with
  | none =>
      refine Or.inr (isKeyed_eq_false_iff.mp fun p hp => ?_)
      exact Bool.eq_false_iff.mpr (List.find?_eq_none.mp hfind p hp)
  | some p =>
      obtain ⟨hp, before, after, heq, hbefore⟩ := List.find?_eq_some_iff_append.mp hfind
      cases p with
      | keyValue k value =>
          refine Or.inl ⟨before, k, value, after, heq, spells_iff.mpr hp, ?_⟩
          exact isKeyed_eq_false_iff.mp fun q hq => by simpa using hbefore q hq
      | _ => cases hp

end Node

namespace Options

open Node

/-- The identifier `x` under the first property for the class is replaced, with what the table has
for it. -/
structure Edits (o : Options) (ps before : List Node) (k : Node) (x : Ident) (after : List Node)
    (r : Replacement) : Prop where
  bind : ∃ p ∈ ps, p.IsNamed o.bindKey
  class_first : FirstUnder o.implementKey ps before k (.ident x) after
  found : o.table.find? x.name = some r

/-- The properties of a provider in which nothing is replaced. -/
inductive Idle (o : Options) (ps : List Node) : Prop
  | noToken (h : ∀ p ∈ ps, ¬ p.IsNamed o.bindKey)
  | noClass (h : ∀ k value, .keyValue k value ∈ ps → ¬ k.Spells o.implementKey)
  | noIdentifier {before k value after} (h : FirstUnder o.implementKey ps before k value after)
      (hvalue : ∀ x, value ≠ .ident x)
  | notFound {before k x after} (h : FirstUnder o.implementKey ps before k (.ident x) after)
      (hnone : o.table.find? x.name = none)

variable {o : Options} {ps : List Node}

theorem Edits.not_idle {before after : List Node} {k : Node} {x : Ident} {r : Replacement}
    (h : o.Edits ps before k x after r) : ¬ o.Idle ps := by
  intro hidle
  cases hidle with
  | noToken hno =>
      obtain ⟨p, hp, hnamed⟩ := h.bind
      exact hno p hp hnamed
  | noClass hno =>
      refine hno k (.ident x) ?_ h.class_first.key
      rw [h.class_first.eq]
      exact List.mem_append_right before List.mem_cons_self
  | noIdentifier hfirst hvalue => exact hvalue x (hfirst.value_unique h.class_first)
  | notFound hfirst hnone =>
      cases hfirst.value_unique h.class_first
      rw [h.found] at hnone
      cases hnone

theorem exists_edits_of_not_idle (h : ¬ o.Idle ps) :
    ∃ before k x after r, o.Edits ps before k x after r := by
  have hbind : ∃ p ∈ ps, p.IsNamed o.bindKey := by
    by_contra hno
    exact h (.noToken fun p hp hnamed => hno ⟨p, hp, hnamed⟩)
  rcases exists_firstUnder_or_none o.implementKey ps with ⟨before, k, value, after, hfirst⟩ | hno
  · by_cases hvalue : ∃ x, value = .ident x
    · obtain ⟨x, rfl⟩ := hvalue
      cases hfound : o.table.find? x.name with
      | none => exact absurd (.notFound hfirst hfound) h
      | some r => exact ⟨before, k, x, after, r, hbind, hfirst, hfound⟩
    · exact absurd (.noIdentifier hfirst fun x hx => hvalue ⟨x, hx⟩) h
  · exact absurd (.noClass hno) h

/-! ## What is done in each case -/

theorem replaceClass_of_first {before after : List Node} {k : Node} {x : Ident}
    (h : FirstUnder o.implementKey ps before k (.ident x) after) :
    (o.replaceClass ps).value = before ++ .keyValue k (.ident (o.lookup x)) :: after ∧
      (o.replaceClass ps).notes = ((o.table.find? x.name).map Note.substituted).toList := by
  rw [h.eq]
  exact replaceClass_split (isKeyed_eq_false_iff.mpr h.first) (spells_iff.mp h.key)

theorem Edits.rewriteProvider_eq {before after : List Node} {k : Node} {x : Ident}
    {r : Replacement} (h : o.Edits ps before k x after r) (span : Span) :
    o.rewriteProvider (.argument none (.object span ps)) =
      ⟨.argument none (.object span (before ++ .keyValue k (.ident (.made r.className)) :: after)),
        [.substituted r]⟩ := by
  have hbind : ps.any (·.isProperty o.bindKey) = true := by
    obtain ⟨p, hp, hnamed⟩ := h.bind
    exact List.any_eq_true.mpr ⟨p, hp, isNamed_iff.mp hnamed⟩
  obtain ⟨hvalue, hnotes⟩ := replaceClass_of_first h.class_first
  rw [h.found] at hnotes
  rw [lookup_of_some h.found] at hvalue
  refine Noted.eq_of_value_of_notes ?_ ?_
  · rw [value_rewriteProvider_long, if_pos hbind, hvalue]
  · rw [rewriteProvider, if_pos hbind, Noted.notes_bind, hnotes]
    rfl

theorem Idle.rewriteProvider_eq (h : o.Idle ps) (span : Span) :
    o.rewriteProvider (.argument none (.object span ps)) =
      pure (.argument none (.object span ps)) := by
  have hkept : ps.any (·.isProperty o.bindKey) = true → o.replaceClass ps = pure ps := by
    intro hbind
    cases h with
    | noToken hno =>
        obtain ⟨p, hp, hproperty⟩ := List.any_eq_true.mp hbind
        exact absurd (isNamed_iff.mpr hproperty) (hno p hp)
    | noClass hno =>
        have hfind : ps.find? (·.isKeyed o.implementKey) = none :=
          List.find?_eq_none.mpr fun p hp => Bool.eq_false_iff.mp (isKeyed_eq_false_iff.mpr hno p hp)
        refine replaceClass_of_none ?_
        rw [implementer?, hfind]
    | noIdentifier hfirst hvalue =>
        refine replaceClass_of_none ?_
        rw [implementer?, hfirst.find?_eq]
        split
        · next heq =>
            cases heq
            exact absurd rfl (hvalue _)
        · rfl
    | notFound hfirst hnone =>
        obtain ⟨hvalue, hnotes⟩ := replaceClass_of_first hfirst
        rw [hnone] at hnotes
        rw [lookup_of_none hnone, ← hfirst.eq] at hvalue
        exact Noted.eq_of_value_of_notes hvalue hnotes
  rw [rewriteProvider]
  split
  · next hbind =>
      rw [hkept hbind]
      rfl
  · rfl

end Options

namespace Session

/-- A provider in the long form comes out with the class under the first key for it replaced, and
every other property where and as it was, if there is a property for the token and the table has an
entry for that class. This is one more substitution, and one more import to be queued. In all other
cases neither the provider nor the session is changed, whatever stands under the key further down. -/
theorem visitProvider_edits_first (s : Session) (span : Span) (ps : List Node) :
    let e : Node := .argument none (.object span ps)
    (∀ before k x after r, s.options.Edits ps before k x after r →
      let ps' : List Node := before ++ .keyValue k (.ident (.made r.className)) :: after
      let used : Substitution := ⟨s.file, x.name, r.className, r.modulePath⟩
      s.visitProvider e =
        ⟨.argument none (.object span ps'),
          { s.queue used.import with substitutions := s.substitutions ++ [used] },
          [.substituted used]⟩) ∧
    (s.options.Idle ps → s.visitProvider e = ⟨e, s, []⟩) ∧
    ((∃ before k x after r, s.options.Edits ps before k x after r) ↔ ¬ s.options.Idle ps) := by
  intro e
  refine ⟨fun before k x after r h => ?_, fun h => ?_, ?_, Options.exists_edits_of_not_idle⟩
  · have hname : r.original = x.name := Table.original_of_find? h.found
    rw [visitProvider, h.rewriteProvider_eq span, ← hname]
    rfl
  · rw [visitProvider, h.rewriteProvider_eq span, absorb_pure]
  · intro h
    obtain ⟨_, _, _, _, _, hedits⟩ := h
    exact hedits.not_idle

/-- The class stands under both spellings of the key, and the first of them counts. If what is there
is no identifier, the second does not take its place. The import was queued before. -/
theorem visitProvider_of_two_classes :
    let s : Session :=
      { options := { table := (Table.ofList [⟨"A", "B", "./b"⟩]).1, dedupeImports := true },
        file := "a.ts", queued := [⟨"B", "./b"⟩] }
    let token : Node := .ident (.made "provide")
    let first (value : Node) : Node := .keyValue (.string .nowhere "useClass" none) value
    let second : Node := .madeProperty "useClass" (.ident (.made "A"))
    let entry (value : Node) : Node := .argument none (.object .nowhere [token, first value, second])
    let used : Substitution := ⟨"a.ts", "A", "B", "./b"⟩
    s.visitProvider (entry (.ident (.made "A"))) =
        ⟨entry (.ident (.made "B")), { s with substitutions := [used] }, [.substituted used]⟩ ∧
      s.visitProvider (entry .absent) = ⟨entry .absent, s, []⟩ := by
  intro s token first second entry used
  have hfirst : ∀ value, Node.FirstUnder "useClass" [token, first value, second] [token]
      (.string .nowhere "useClass" none) value [second] := by
    intro value
    refine ⟨rfl, .string .., fun k' value' hmem => ?_⟩
    have heq : Node.keyValue k' value' = .ident (.made "provide") := List.mem_singleton.mp hmem
    cases heq
  have htoken : ∃ p ∈ [token, first (.ident (.made "A")), second], p.IsNamed "provide" :=
    ⟨token, List.mem_cons_self, .shorthand _ rfl⟩
  constructor
  · exact (s.visitProvider_edits_first .nowhere _).1 _ _ _ _ ⟨"A", "B", "./b"⟩
      ⟨htoken, hfirst _, rfl⟩
  · exact (s.visitProvider_edits_first .nowhere _).2.1
      (.noIdentifier (hfirst .absent) fun x hx => by cases hx)

end Session

end Rebind
