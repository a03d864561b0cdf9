import Rebind.Proofs.Rewrite.Idempotence

/-!
# Two rewrites with two tables

One rewrite with a first table and another one with a second come to a single
rewrite with a table that says what the two say one after the other. For the
statements this is what `Chains` says, once it is known that a look into the one
table is two looks into the others.

The kind of the program takes a look at all the candidates. A script becomes a
module as soon as either rewrite replaces a class. The second one meets the
candidates after the first, and as long as the first has replaced none they are
the candidates of the program itself, for which the composed table has something
just if one of the two has.
-/

namespace Rebind.Options

variable {o₁ o₂ o₃ : Options}

theorem chains_of_composes (h₁ : o₁.vocabulary = o₃.vocabulary)
    (h₂ : o₂.vocabulary = o₃.vocabulary) (hkeys : o₃.bindKey ≠ o₃.implementKey)
    (htable : o₁.table.Composes o₂.table o₃.table) : Chains o₁ o₂ o₃ where
  first := h₁
  second := h₂
  lookup_lookup i := by
    rw [lookup_eq_className? o₃, htable, lookup_eq_className? o₁]
    cases o₁.table.className? i.name with
    | none => exact o₂.lookup_eq_className? i
    | some c =>
        have hmade : (o₂.table.className? c).elim (Ident.made c) Ident.made =
            .made ((o₂.table.className? c).getD c) := by
          cases o₂.table.className? c <;> rfl
        exact (o₂.lookup_eq_className? (.made c)).trans hmade
  keys := Or.inl hkeys

theorem substitutions_eq_nil_iff_className? {o : Options} {file : String} {p : Program} :
    (o.rewrite file p).substitutions = [] ↔
      ∀ x ∈ o.vocabulary.candidates p, o.table.className? x.name = none := by
  rw [substitutions_eq_nil]
  simp only [Table.className?, Option.map_eq_none_iff]

/-- Neither of the two rewrites replaces a class, just if the single one does
not. -/
theorem substitutions_eq_nil_of_composes (h₁ : o₁.vocabulary = o₃.vocabulary)
    (h₂ : o₂.vocabulary = o₃.vocabulary) (hkeys : o₃.bindKey ≠ o₃.implementKey)
    (htable : o₁.table.Composes o₂.table o₃.table) (file₁ file₂ file₃ : String) (p : Program) :
    ((o₁.rewrite file₁ p).substitutions = [] ∧
        (o₂.rewrite file₂ (o₁.rewrite file₁ p).program).substitutions = []) ↔
      (o₃.rewrite file₃ p).substitutions = [] := by
  have hkeys₁ : o₁.bindKey ≠ o₁.implementKey := by
    rw [bindKey_of_vocabulary h₁, implementKey_of_vocabulary h₁]
    exact hkeys
  have hsecond : o₂.vocabulary.candidates (o₁.rewrite file₁ p).program =
      (o₃.vocabulary.candidates p).map o₁.lookup := by
    rw [h₂, ← h₁, candidates_rewrite hkeys₁]
  rw [substitutions_eq_nil_iff_className?, substitutions_eq_nil_iff_className?,
    substitutions_eq_nil_iff_className?, hsecond, h₁]
  -- while the first table has nothing for a candidate, the second one is asked for it too
  have hsame : ∀ x, o₁.table.className? x.name = none → o₁.lookup x = x := by
    intro x hx
    rw [lookup_eq_className?, hx]
    rfl
  constructor
  · rintro ⟨hfirst, hnone⟩ x hx
    have hlookup := hnone (o₁.lookup x) (List.mem_map_of_mem hx)
    rw [hsame x (hfirst x hx)] at hlookup
    exact (htable.className?_eq_none x.name).mpr ⟨hfirst x hx, hlookup⟩
  · intro honce
    have hboth := fun x hx => (htable.className?_eq_none x.name).mp (honce x hx)
    refine ⟨fun x hx => (hboth x hx).1, fun y hy => ?_⟩
    obtain ⟨x, hx, rfl⟩ := List.mem_map.mp hy
    rw [hsame x (hboth x hx).1]
    exact (hboth x hx).2

theorem kind_of_composes (h₁ : o₁.vocabulary = o₃.vocabulary)
    (h₂ : o₂.vocabulary = o₃.vocabulary) (hkeys : o₃.bindKey ≠ o₃.implementKey)
    (htable : o₁.table.Composes o₂.table o₃.table) (file₁ file₂ file₃ : String) (p : Program) :
    (o₂.rewrite file₂ (o₁.rewrite file₁ p).program).program.kind =
      (o₃.rewrite file₃ p).program.kind := by
  have hnil := substitutions_eq_nil_of_composes h₁ h₂ hkeys htable file₁ file₂ file₃ p
  rw [kind_rewrite, kind_rewrite, kind_rewrite]
  by_cases honce : (o₃.rewrite file₃ p).substitutions = []
  · obtain ⟨hfirst, hsecond⟩ := hnil.mpr honce
    rw [if_pos honce, if_pos hsecond, if_pos hfirst]
  · rw [if_neg honce]
    split
    · next hsecond => rw [if_neg fun hfirst => honce (hnil.mp ⟨hfirst, hsecond⟩)]
    · rfl

/-- Two tables one after the other come to one, and there is such a table for
any two. The statements are those of a single rewrite with it, and so is the
kind of the program. In front of them stand the imports of the second rewrite,
and behind these the imports of the first. -/
theorem rewrite_rewrite (h : o₁.vocabulary = o₂.vocabulary)
    (hkeys : o₁.bindKey ≠ o₁.implementKey) :
    (∃ t, o₁.table.Composes o₂.table t) ∧
    ∀ o₃ : Options, o₃.vocabulary = o₁.vocabulary → o₁.table.Composes o₂.table o₃.table →
      ∀ (file₁ file₂ file₃ : String) (p : Program),
        let first := o₁.rewrite file₁ p
        let second := o₂.rewrite file₂ first.program
        let once := o₃.rewrite file₃ p
        let imports₁ := (o₁.imports first.substitutions).map Import.declaration
        let imports₂ := (o₂.imports second.substitutions).map Import.declaration
        let imports₃ := (o₃.imports once.substitutions).map Import.declaration
        ∃ between statements,
          first.program.body = { p.body with items := imports₁ ++ between } ∧
          second.program.body = { p.body with items := imports₂ ++ (imports₁ ++ statements) } ∧
          once.program.body = { p.body with items := imports₃ ++ statements } ∧
          second.program.kind = once.program.kind := by
  refine ⟨⟨_, Table.composes_andThen _ _⟩, ?_⟩
  intro o₃ h₃ htable file₁ file₂ file₃ p
  have hsecond : o₂.vocabulary = o₃.vocabulary := by rw [h₃, h]
  have hkeys₃ : o₃.bindKey ≠ o₃.implementKey := by
    rw [bindKey_of_vocabulary h₃, implementKey_of_vocabulary h₃]
    exact hkeys
  have hchains := chains_of_composes h₃.symm hsecond hkeys₃ htable
  refine ⟨(o₁.walk p).value, (o₃.walk p).value, o₁.body_rewrite file₁ p, ?_,
    o₃.body_rewrite file₃ p, kind_of_composes h₃.symm hsecond hkeys₃ htable file₁ file₂ file₃ p⟩
  rw [o₂.body_rewrite, hchains.walk, o₁.body_rewrite]

/-- `A` becomes `B` and then `C`: both are imported, and the script that they are
imported into has the statements of the one that imports `C` alone. -/
theorem rewrite_rewrite_chained :
    let o₁ : Options := { table := (Table.ofList [⟨"A", "B", "./b"⟩]).1 }
    let o₂ : Options :=
      { table := (Table.ofList [⟨"B", "C", "./c"⟩, ⟨"D", "E", "./e"⟩]).1, dedupeImports := true }
    let o₃ : Options := { table := o₁.table.andThen o₂.table }
    let p : Program := .script (Program.providing "Component" "A").body
    let second := o₂.rewrite "2.ts" (o₁.rewrite "1.ts" p).program
    (o₁.vocabulary = o₂.vocabulary ∧ o₁.bindKey ≠ o₁.implementKey ∧
      o₁.table.Composes o₂.table o₃.table) ∧
    ∃ statements,
      second.program.body.items =
        [Import.declaration ⟨"C", "./c"⟩, Import.declaration ⟨"B", "./b"⟩] ++ statements ∧
      (o₃.rewrite "3.ts" p).program.body.items =
        [Import.declaration ⟨"C", "./c"⟩] ++ statements := by
  intro o₁ o₂ o₃ p second
  have hnames : o₁.vocabulary = o₂.vocabulary := rfl
  have hkeys : o₁.bindKey ≠ o₁.implementKey := by decide
  have htable : o₁.table.Composes o₂.table o₃.table := Table.composes_andThen _ _
  obtain ⟨between, statements, -, hsecond, honce, -⟩ :=
    (rewrite_rewrite hnames hkeys).2 o₃ rfl htable "1.ts" "2.ts" "3.ts" p
  have himports₁ : o₁.imports (o₁.rewrite "1.ts" p).substitutions = [⟨"B", "./b"⟩] := by decide
  have himports₂ : o₂.imports second.substitutions = [⟨"C", "./c"⟩] := by decide
  have himports₃ : o₃.imports (o₃.rewrite "3.ts" p).substitutions = [⟨"C", "./c"⟩] := by decide
  refine ⟨⟨hnames, hkeys, htable⟩, statements, ?_, ?_⟩
  · rw [hsecond, himports₁, himports₂]
    rfl
  · rw [honce, himports₃]
    rfl

end Rebind.Options
