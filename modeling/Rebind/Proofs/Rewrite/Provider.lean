import Rebind.Proofs.Options.Table
import Rebind.Proofs.Rewrite.Candidate

/-!
# Elements of lists of providers

What the rewrite makes of one element: the class that it is looked up for, if
there is one, is replaced by what the table says, and there is a note exactly if
the table says anything. Everything else here is about two rewrites in a row.
The first one leaves only long forms, so what the second one looks up is what
the first one put in.
-/

namespace Rebind

theorem Table.original_of_find? {t : Table} {name : String} {r : Replacement}
    (h : t.find? name = some r) : r.original = name := by
  have hr := List.find?_some h
  simpa using hr

theorem Noted.eq_of_value_of_notes {α : Type} {m n : Noted α} (hvalue : m.value = n.value)
    (hnotes : m.notes = n.notes) : m = n := by
  cases m
  cases n
  rw [Noted.mk.injEq]
  exact ⟨hvalue, hnotes⟩

namespace Options

/-! ## One look into the table -/

/-- The class that an implementing class becomes. -/
def lookup (o : Options) (i : Ident) : Ident :=
  match o.table.find? i.name with
  | none => i
  | some r => .made r.className

theorem lookup_of_none {o : Options} {i : Ident} (h : o.table.find? i.name = none) :
    o.lookup i = i := by
  rw [lookup, h]

theorem lookup_of_some {o : Options} {i : Ident} {r : Replacement}
    (h : o.table.find? i.name = some r) : o.lookup i = .made r.className := by
  rw [lookup, h]

theorem lookup_eq_className? (o : Options) (i : Ident) :
    o.lookup i = (o.table.className? i.name).elim i .made := by
  rw [lookup, Table.className?]
  cases o.table.find? i.name <;> rfl

theorem value_implementation (o : Options) (i : Ident) :
    (o.implementation i).value = o.lookup i := by
  rw [implementation, lookup]
  cases o.table.find? i.name <;> rfl

theorem notes_implementation (o : Options) (i : Ident) :
    (o.implementation i).notes = ((o.table.find? i.name).map Note.substituted).toList := by
  rw [implementation]
  cases o.table.find? i.name <;> rfl

/-! ## The properties of a long form -/

theorem replaceClass_cons_of_not_keyed {o : Options} {p : Node}
    (hp : p.isKeyed o.implementKey = false) (ps : List Node) :
    (o.replaceClass (p :: ps)).value = p :: (o.replaceClass ps).value ∧
      (o.replaceClass (p :: ps)).notes = (o.replaceClass ps).notes := by
  cases p with
  | keyValue k value =>
      rw [Node.isKeyed] at hp
      simp [replaceClass, hp]
  | _ => simp [replaceClass]

theorem replaceClass_append {o : Options} {before : List Node}
    (hbefore : ∀ p ∈ before, p.isKeyed o.implementKey = false) (ps : List Node) :
    (o.replaceClass (before ++ ps)).value = before ++ (o.replaceClass ps).value ∧
      (o.replaceClass (before ++ ps)).notes = (o.replaceClass ps).notes := by
  induction before with
  | nil => exact ⟨rfl, rfl⟩
  | cons p before ih =>
      obtain ⟨hvalue, hnotes⟩ := ih fun q hq => hbefore q (List.mem_cons_of_mem p hq)
      obtain ⟨hvalue', hnotes'⟩ := replaceClass_cons_of_not_keyed
        (hbefore p List.mem_cons_self) (before ++ ps)
      rw [List.cons_append, hvalue', hnotes', hvalue, hnotes]
      exact ⟨rfl, rfl⟩

/-- The class is replaced where it stands, and what stands before and after it
stays. -/
theorem replaceClass_split {o : Options} {before after : List Node} {k : Node} {i : Ident}
    (hbefore : ∀ p ∈ before, p.isKeyed o.implementKey = false)
    (hk : k.isKey o.implementKey = true) :
    (o.replaceClass (before ++ .keyValue k (.ident i) :: after)).value =
        before ++ .keyValue k (.ident (o.lookup i)) :: after ∧
      (o.replaceClass (before ++ .keyValue k (.ident i) :: after)).notes =
        ((o.table.find? i.name).map Note.substituted).toList := by
  obtain ⟨hvalue, hnotes⟩ := replaceClass_append hbefore (.keyValue k (.ident i) :: after)
  rw [hvalue, hnotes, replaceClass, if_pos hk]
  simp [value_implementation, notes_implementation]

theorem replaceClass_of_none {o : Options} {ps : List Node}
    (h : Node.implementer? o.implementKey ps = none) : o.replaceClass ps = pure ps := by
  induction ps with
  | nil => rfl
  | cons p ps ih =>
      cases hp : p.isKeyed o.implementKey with
      | false =>
          rw [Node.implementer?, List.find?_cons_of_neg (by simp [hp]), ← Node.implementer?] at h
          obtain ⟨hvalue, hnotes⟩ := replaceClass_cons_of_not_keyed hp ps
          rw [ih h] at hvalue hnotes
          exact Noted.eq_of_value_of_notes hvalue hnotes
      | true =>
          cases p with
          | keyValue k value =>
              rw [Node.implementer?, List.find?_cons_of_pos hp] at h
              rw [Node.isKeyed] at hp
              rw [replaceClass.eq_def]
              simp only [hp, if_true]
              split
              · cases h
              · rfl
          | _ => cases hp

theorem value_replaceClass (o : Options) (ps : List Node) :
    (o.replaceClass ps).value =
      match Node.implementer? o.implementKey ps with
      | none => ps
      | some i => Node.setImplementer o.implementKey (o.lookup i) ps := by
  cases h : Node.implementer? o.implementKey ps with
  | none => rw [replaceClass_of_none h, Noted.value_pure]
  | some i =>
      obtain ⟨before, k, after, rfl, hbefore, hk⟩ := Node.exists_split_of_implementer? h
      exact (replaceClass_split hbefore hk).1.trans (Node.setImplementer_split hbefore hk _).symm

theorem notes_replaceClass (o : Options) (ps : List Node) :
    (o.replaceClass ps).notes =
      (((Node.implementer? o.implementKey ps).bind (o.table.find? ·.name)).map
        Note.substituted).toList := by
  cases h : Node.implementer? o.implementKey ps with
  | none => rw [replaceClass_of_none h]; rfl
  | some i =>
      obtain ⟨before, k, after, rfl, hbefore, hk⟩ := Node.exists_split_of_implementer? h
      exact (replaceClass_split hbefore hk).2

theorem value_replaceClass_of_lookup {o : Options} (h : ∀ i, o.lookup i = i) (ps : List Node) :
    (o.replaceClass ps).value = ps := by
  cases hclass : Node.implementer? o.implementKey ps with
  | none => rw [replaceClass_of_none hclass, Noted.value_pure]
  | some i =>
      obtain ⟨before, k, after, rfl, hbefore, hk⟩ := Node.exists_split_of_implementer? hclass
      rw [(replaceClass_split hbefore hk).1, h]

theorem implementer?_replaceClass (o : Options) (ps : List Node) :
    Node.implementer? o.implementKey (o.replaceClass ps).value =
      (Node.implementer? o.implementKey ps).map o.lookup := by
  cases h : Node.implementer? o.implementKey ps with
  | none => rw [replaceClass_of_none h, Noted.value_pure, h, Option.map_none]
  | some i =>
      obtain ⟨before, k, after, rfl, hbefore, hk⟩ := Node.exists_split_of_implementer? h
      rw [(replaceClass_split hbefore hk).1, Node.implementer?_split hbefore hk,
        Option.map_some]

theorem any_isProperty_replaceClass (o : Options) (name : String) (ps : List Node) :
    (o.replaceClass ps).value.any (·.isProperty name) = ps.any (·.isProperty name) := by
  cases h : Node.implementer? o.implementKey ps with
  | none => rw [replaceClass_of_none h, Noted.value_pure]
  | some i =>
      obtain ⟨before, k, after, rfl, hbefore, hk⟩ := Node.exists_split_of_implementer? h
      rw [(replaceClass_split hbefore hk).1]
      simp [Node.isProperty]

theorem classes_replaceClass (o : Options) (ps : List Node) :
    (o.replaceClass ps).value.flatMap Node.classes = ps.flatMap Node.classes := by
  cases h : Node.implementer? o.implementKey ps with
  | none => rw [replaceClass_of_none h, Noted.value_pure]
  | some i =>
      obtain ⟨before, k, after, rfl, hbefore, hk⟩ := Node.exists_split_of_implementer? h
      rw [(replaceClass_split hbefore hk).1]
      simp

/-! ## Elements -/

/-- An element is of the short form, of the long form, or nothing is done to it. -/
theorem element_cases (e : Node) :
    (∃ token, e = .argument none (.ident token)) ∨
    (∃ span ps, e = .argument none (.object span ps)) ∨
    ((∀ o : Options, o.rewriteProvider e = pure e) ∧
      ∀ v : Vocabulary, v.candidate? e = none) := by
  by_cases hshort : ∃ token, e = .argument none (.ident token)
  · exact Or.inl hshort
  · by_cases hlong : ∃ span ps, e = .argument none (.object span ps)
    · exact Or.inr (Or.inl hlong)
    · refine Or.inr (Or.inr ⟨fun o => ?_, fun v => ?_⟩)
      · rw [rewriteProvider.eq_def]
        split
        · next token => exact absurd ⟨token, rfl⟩ hshort
        · next span ps => exact absurd ⟨span, ps, rfl⟩ hlong
        · rfl
      · rw [Vocabulary.candidate?.eq_def]
        split
        · next token => exact absurd ⟨token, rfl⟩ hshort
        · next span ps => exact absurd ⟨span, ps, rfl⟩ hlong
        · rfl

theorem candidate?_short (o : Options) (token : Ident) :
    o.vocabulary.candidate? (.argument none (.ident token)) = some token := rfl

theorem candidate?_long (o : Options) (span : Span) (ps : List Node) :
    o.vocabulary.candidate? (.argument none (.object span ps)) =
      if ps.any (·.isProperty o.bindKey) then Node.implementer? o.implementKey ps
      else none := rfl

theorem value_rewriteProvider_short (o : Options) (token : Ident) :
    (o.rewriteProvider (.argument none (.ident token))).value =
      .argument none (o.provider token (o.lookup token)) := by
  rw [rewriteProvider, Noted.value_bind, value_implementation]
  rfl

theorem value_rewriteProvider_long (o : Options) (span : Span) (ps : List Node) :
    (o.rewriteProvider (.argument none (.object span ps))).value =
      .argument none (.object span
        (if ps.any (·.isProperty o.bindKey) then (o.replaceClass ps).value else ps)) := by
  rw [rewriteProvider]
  split <;> rfl

/-- If there is a class to look up in an element, the element comes out in its
long form, with the class that one look into the table gave. -/
theorem value_rewriteProvider (o : Options) (e : Node) :
    (o.rewriteProvider e).value =
      match o.vocabulary.candidate? e with
      | none => e
      | some x => o.vocabulary.bound e (o.lookup x) := by
  rcases element_cases e with ⟨token, rfl⟩ | ⟨span, ps, rfl⟩ | ⟨hvalue, hcandidate⟩
  · rw [value_rewriteProvider_short]
    rfl
  · rw [value_rewriteProvider_long, candidate?_long, value_replaceClass]
    by_cases hbind : ps.any (·.isProperty o.bindKey) = true
    · rw [if_pos hbind, if_pos hbind]
      cases Node.implementer? o.implementKey ps <;> rfl
    · rw [if_neg hbind, if_neg hbind]
  · rw [hvalue, hcandidate, Noted.value_pure]

/-- An element is looked up once, if it is looked up at all. -/
theorem notes_rewriteProvider (o : Options) (e : Node) :
    (o.rewriteProvider e).notes =
      (((o.vocabulary.candidate? e).bind (o.table.find? ·.name)).map
        Note.substituted).toList := by
  rcases element_cases e with ⟨token, rfl⟩ | ⟨span, ps, rfl⟩ | ⟨hvalue, hcandidate⟩
  · rw [rewriteProvider, candidate?_short, Noted.notes_bind, notes_implementation]
    exact List.append_nil _
  · rw [rewriteProvider, candidate?_long]
    split
    · rw [Noted.notes_bind, notes_replaceClass]
      exact List.append_nil _
    · rfl
  · rw [hvalue, hcandidate]
    rfl

/-- In a long form that was made, the class is found if the keys differ. If they
do not, the token stands in front of it. -/
theorem candidate?_provider (o : Options) (token implementer : Ident) :
    o.vocabulary.candidate? (.argument none (o.provider token implementer)) =
      some (if o.bindKey = o.implementKey then token else implementer) := by
  rw [provider, candidate?_long]
  by_cases hkeys : o.bindKey = o.implementKey
  · simp [Node.implementer?, Node.madeProperty, Node.isProperty, Node.isKeyed, Node.isKey, hkeys]
  · simp [Node.implementer?, Node.madeProperty, Node.isProperty, Node.isKeyed, Node.isKey, hkeys]

/-- What is looked up in an element that was rewritten is what was put in. -/
theorem candidate?_rewriteProvider {o : Options} (hkeys : o.bindKey ≠ o.implementKey)
    (e : Node) :
    o.vocabulary.candidate? (o.rewriteProvider e).value =
      (o.vocabulary.candidate? e).map o.lookup := by
  rcases element_cases e with ⟨token, rfl⟩ | ⟨span, ps, rfl⟩ | ⟨hvalue, hcandidate⟩
  · rw [value_rewriteProvider_short, candidate?_provider, if_neg hkeys, candidate?_short,
      Option.map_some]
  · rw [value_rewriteProvider_long, candidate?_long, candidate?_long]
    by_cases hbind : ps.any (·.isProperty o.bindKey) = true
    · rw [if_pos hbind, any_isProperty_replaceClass, if_pos hbind, if_pos hbind,
        implementer?_replaceClass]
    · rw [if_neg hbind, if_neg hbind, Option.map_none]
  · rw [hvalue, Noted.value_pure, hcandidate]
    rfl

theorem classes_rewriteProvider (o : Options) (e : Node) :
    (o.rewriteProvider e).value.classes = e.classes := by
  rcases element_cases e with ⟨token, rfl⟩ | ⟨span, ps, rfl⟩ | ⟨hvalue, -⟩
  · rw [value_rewriteProvider_short]
    simp [provider, Node.madeProperty]
  · rw [value_rewriteProvider_long]
    split
    · simp [classes_replaceClass]
    · rfl
  · rw [hvalue, Noted.value_pure]

end Options

end Rebind
