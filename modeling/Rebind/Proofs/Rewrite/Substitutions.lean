import Rebind.Proofs.Session.Program

/-!
# Which classes are replaced

The candidates of a program are read off the program; the walk takes it apart
and puts it together again. Both come to the same: the replacements that the
walk uses are what the table has for the candidates, one after the other. Each
candidate is looked up once. What was put in for it is not looked up again, even
if the table has a replacement for that too: the elements of the program that
comes out are those of the program that went in, with one look into the table for
each.
-/

namespace Rebind

theorem Import.classes_declaration (i : Import) : i.declaration.classes = [] := by
  simp [declaration, Node.absent]

namespace Options

theorem hits_rewriteTree (o : Options) (n : Node) :
    (n.rewrite o).hits = (o.vocabulary.ofTree n).filterMap fun e =>
      (o.vocabulary.candidate? e).bind (o.table.find? ·.name) := by
  rw [Noted.hits, Node.notes_rewrite, Vocabulary.ofTree, List.filterMap_flatMap,
    List.filterMap_flatMap]
  refine List.flatMap_congr fun c _ => ?_
  rw [List.filterMap_flatMap, List.filterMap_flatMap]
  refine List.flatMap_congr fun d _ => ?_
  exact o.hits_rewriteDecorator d

/-- The walk uses what the table has for the candidates. -/
theorem hits_walk (o : Options) (p : Program) :
    (o.walk p).hits = (o.vocabulary.candidates p).filterMap (o.table.find? ·.name) := by
  rw [Noted.hits, walk, notes_rewriteNodes, Vocabulary.candidates, List.filterMap_filterMap,
    Vocabulary.elements, List.filterMap_flatMap, List.filterMap_flatMap]
  refine List.flatMap_congr fun n _ => ?_
  exact o.hits_rewriteTree n

/-- The outermost class declarations of a program stay the same ones, with the images of their
decorators. There are none in the imports in front. -/
theorem classes_rewrite (o : Options) (file : String) (p : Program) :
    (o.rewrite file p).program.body.items.flatMap Node.classes =
      (p.body.items.flatMap Node.classes).map (Node.mapDecorators o.image) := by
  have himports : ∀ is : List Import, (is.map Import.declaration).flatMap Node.classes = [] := by
    intro is
    rw [List.flatMap_map, List.flatMap_eq_nil_iff]
    exact fun i _ => i.classes_declaration
  have hwalk := (o.redecorated_walk p).classes
  rw [Node.classes_list, Node.classes_list] at hwalk
  rw [body_rewrite, List.flatMap_append, himports, List.nil_append, hwalk]

/-- The elements of a program that was rewritten are those that it had, each of
them rewritten. -/
theorem elements_rewrite (o : Options) (file : String) (p : Program) :
    o.vocabulary.elements (o.rewrite file p).program =
      (o.vocabulary.elements p).map fun e => (o.rewriteProvider e).value := by
  have helements : ∀ q : Program, o.vocabulary.elements q =
      (q.body.items.flatMap Node.classes).flatMap fun c =>
        c.decorators.flatMap o.vocabulary.ofDecorator := fun _ => List.flatMap_assoc.symm
  rw [helements, helements, classes_rewrite, List.flatMap_map, List.map_flatMap]
  refine List.flatMap_congr fun c _ => ?_
  rw [Node.decorators_mapDecorators, List.flatMap_map, List.map_flatMap]
  exact List.flatMap_congr fun d _ => o.ofDecorator_image d

/-- If the keys differ, the candidates of a program that was rewritten are what
the table had for those of the program. -/
theorem candidates_rewrite {o : Options} (hkeys : o.bindKey ≠ o.implementKey) (file : String)
    (p : Program) :
    o.vocabulary.candidates (o.rewrite file p).program =
      (o.vocabulary.candidates p).map o.lookup := by
  rw [Vocabulary.candidates, elements_rewrite, List.filterMap_map, Vocabulary.candidates,
    List.map_filterMap]
  exact List.filterMap_congr fun e _ => candidate?_rewriteProvider hkeys e

/-- The substitutions of a rewrite are the candidates that the table has a
replacement for, in the order of the walk, and are what is reported. Each is
looked up once: the elements that come out are those that went in, with what the
table had for their candidates in them, and this is not looked up again. -/
theorem substitutions_eq_candidates (o : Options) (file : String) (p : Program) :
    (o.rewrite file p).substitutions =
        (o.vocabulary.candidates p).filterMap (fun x =>
          (o.table.find? x.name).map fun r => ⟨file, x.name, r.className, r.modulePath⟩) ∧
      (o.rewrite file p).events.filter (·.level = .info) =
        (o.rewrite file p).substitutions.map Event.substituted ∧
      o.vocabulary.elements (o.rewrite file p).program =
        (o.vocabulary.elements p).map fun e =>
          match o.vocabulary.candidate? e with
          | none => e
          | some x => o.vocabulary.bound e (o.lookup x) := by
  refine ⟨?_, ?_, ?_⟩
  · rw [o.substitutions_rewrite, hits_walk, List.map_filterMap]
    refine List.filterMap_congr fun x _ => ?_
    cases h : o.table.find? x.name with
    | none => rfl
    | some r =>
        rw [Option.map_some, Option.map_some, Replacement.substitution,
          Table.original_of_find? h]
  · rw [Event.filter_info, substitutions_of_events_rewrite]
  · rw [elements_rewrite]
    exact List.map_congr_left fun e _ => o.value_rewriteProvider e

end Options

end Rebind
