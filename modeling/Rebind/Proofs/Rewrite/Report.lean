import Rebind.Proofs.Session.Program

/-!
# What is noted of a program

The notes of a walk can be read off the program like the candidates. The
decorators of the outermost class declarations come one after the other, and of
each there is one thing to say at most: why it is skipped, or what the table has
for the candidates in it. The first takes the names of the decorators and
nothing else of the options.
-/

namespace Rebind

/-- The decorators of the outermost class declarations, in the order of the
walk. -/
def Program.decorators (p : Program) : List Node :=
  p.body.items.flatMap fun n => n.classes.flatMap Node.decorators

/-- What is noted of arguments that are no metadata: how many there are, if there
is not one, or that the only one is no object literal. A spread argument is no
reason for a note. -/
def Note.ofArguments : List Node → List Note
  | [.argument none (.object ..)] => []
  | [.argument none _] => [.notObject]
  | [_] => []
  | arguments => [.argumentCount arguments.length]

/-- What is noted of a decorator that is skipped. -/
def Vocabulary.skips (v : Vocabulary) : Node → List Note
  | .decorator _ (.call _ _ (.ident name) arguments _) =>
      if v.decorators.contains name.name then Note.ofArguments arguments else []
  | _ => []

namespace Options

open Node

/-- A decorator is the call of a name, or nothing is done to it. -/
theorem decorator_cases (d : Node) :
    (∃ span callSpan context name arguments typeArguments,
      d = .decorator span (.call callSpan context (.ident name) arguments typeArguments)) ∨
    ((∀ o : Options, o.rewriteDecorator d = pure d) ∧ ∀ v : Vocabulary, v.skips d = []) := by
  by_cases hcall : ∃ span callSpan context name arguments typeArguments,
      d = .decorator span (.call callSpan context (.ident name) arguments typeArguments)
  · exact Or.inl hcall
  · refine Or.inr ⟨fun o => ?_, fun v => ?_⟩
    · rw [rewriteDecorator.eq_def]
      split
      · exact absurd ⟨_, _, _, _, _, _, rfl⟩ hcall
      · rfl
    · rw [Vocabulary.skips.eq_def]
      split
      · exact absurd ⟨_, _, _, _, _, _, rfl⟩ hcall
      · rfl

theorem notes_rewriteArguments_of_no_object (o : Options) {arguments : List Node}
    (h : ∀ span ps, arguments ≠ [.argument none (.object span ps)]) :
    (o.rewriteArguments arguments).notes = Note.ofArguments arguments := by
  rw [rewriteArguments.eq_def]
  split
  · next span ps => exact absurd rfl (h span ps)
  · next hno =>
      rw [Note.ofArguments.eq_2 _ hno]
      rfl
  · next hno hspread =>
      rw [Note.ofArguments.eq_3 _ hno hspread]
      rfl
  · next hno hsingle hone =>
      rw [Note.ofArguments.eq_4 _ hno hsingle hone]
      rfl

theorem skips_of_some {v : Vocabulary} {d : Node} {f : MetadataFrame} {ps : List Node}
    (h : d.metadata? v.decorators = some (f, ps)) : v.skips d = [] := by
  obtain ⟨rfl, hname⟩ := eq_fill_of_metadata? h
  rw [MetadataFrame.fill, Vocabulary.skips, if_pos hname, Note.ofArguments]

theorem notes_rewriteDecorator_of_none {o : Options} {d : Node}
    (h : d.metadata? o.decorators = none) :
    (o.rewriteDecorator d).notes = o.vocabulary.skips d := by
  rcases decorator_cases d with
    ⟨span, callSpan, context, name, arguments, typeArguments, rfl⟩ | ⟨hvalue, hskips⟩
  · rw [rewriteDecorator, recognises, Vocabulary.skips, vocabulary]
    by_cases hname : o.decorators.contains name.name = true
    · have hno : ∀ objectSpan ps, arguments ≠ [.argument none (.object objectSpan ps)] := by
        rintro objectSpan ps rfl
        rw [metadata?, if_pos hname] at h
        cases h
      rw [if_pos hname, if_pos hname, ← o.notes_rewriteArguments_of_no_object hno]
      exact List.append_nil _
    · rw [if_neg hname, if_neg hname]
      rfl
  · rw [hvalue, hskips]
    rfl

/-- Of a decorator there is noted why it is skipped, or what the table has for
the candidates in it. -/
theorem notes_rewriteDecorator (o : Options) (d : Node) :
    (o.rewriteDecorator d).notes = o.vocabulary.skips d ++
      ((o.vocabulary.ofDecorator d).filterMap fun e =>
        (o.vocabulary.candidate? e).bind (o.table.find? ·.name)).map Note.substituted := by
  cases h : d.metadata? o.vocabulary.decorators with
  | none =>
      rw [notes_rewriteDecorator_of_none h, Vocabulary.ofDecorator, h, List.filterMap_nil,
        List.map_nil, List.append_nil]
  | some m =>
      obtain ⟨f, ps⟩ := m
      rw [(rewriteDecorator_of_some h).2, notes_rewriteMetadata, skips_of_some h,
        Vocabulary.ofDecorator, h, List.nil_append]

theorem notes_walk (o : Options) (p : Program) :
    (o.walk p).notes = p.decorators.flatMap fun d => (o.rewriteDecorator d).notes := by
  rw [walk, notes_rewriteNodes, Program.decorators, List.flatMap_assoc]
  refine List.flatMap_congr fun n _ => ?_
  rw [notes_rewrite, List.flatMap_assoc]

theorem events_rewrite (o : Options) (file : String) (p : Program) :
    (o.rewrite file p).events = (o.walk p).notes.map (·.event file) ++
      if (o.rewrite file p).program.kind = p.kind then [] else [.promoted file] :=
  Session.events_visitProgram { options := o, file } p

end Options

end Rebind
