import Rebind.Proofs.Rewrite.Substitutions
import Rebind.Proofs.Session.Queue

/-!
# Scripts and modules

A program that is a script goes another way through a visit than a module with
the same items. A module always takes the imports that wait. A script has
nowhere to put them, so it looks first whether there are any, and becomes a
module only then. The two ways end alike, whatever the session has been through
before: they differ in the kind of a program that needs no imports, and in the
one event that tells of the change of kind.

Whether there are imports is not left to the walk. It can be read off the
session and the items: there are those that waited before, and the fresh ones
among those that the candidates need.
-/

namespace Rebind

theorem Note.event_ne_promoted (n : Note) (file file' : String) :
    n.event file ≠ .promoted file' := by
  cases n <;> exact Event.noConfusion

namespace Session

theorem pending_visitBody (s : Session) (b : Body) :
    (s.visitBody b).session.pending = s.pending ++
      s.fresh (((s.options.vocabulary.candidates (.script b)).filterMap
        (s.options.table.find? ·.name)).map (·.substitution s.file)) := by
  rw [← Options.hits_walk]
  exact s.pending_walk (.script b)

theorem substitutions_visitBody (s : Session) (b : Body) :
    (s.visitBody b).session.substitutions = s.substitutions ++
      ((s.options.vocabulary.candidates (.script b)).filterMap
        (s.options.table.find? ·.name)).map (·.substitution s.file) := by
  rw [← Options.hits_walk]
  exact substitutions_foldl_account _ s

theorem result_visitBody (s : Session) (b : Body) :
    (s.visitBody b).result =
      { b with items := b.items.map fun n => (n.rewrite s.options).value } := by
  rw [← value_rewriteNodes]
  rfl

theorem promoted_not_mem_visitBody (s : Session) (b : Body) (file : String) :
    .promoted file ∉ (s.visitBody b).events := by
  intro hmem
  obtain ⟨n, -, hn⟩ := List.mem_map.mp hmem
  exact n.event_ne_promoted s.file file hn

/-- A script and the module with the same items leave the same session behind,
and report the same. A script that some imports wait for becomes that module,
and reports it last; one that none wait for stays a script, with the items that
the module has. -/
theorem visitProgram_script_module (s : Session) (b : Body) :
    let found := ((s.options.vocabulary.candidates (.script b)).filterMap
      (s.options.table.find? ·.name)).map (·.substitution s.file)
    let walked := s.visitBody b
    let waiting := walked.session.pending
    let asScript := s.visitProgram (.script b)
    let asModule := s.visitProgram (.module b)
    (waiting = s.pending ++ s.fresh found ∧
      walked.session.substitutions = s.substitutions ++ found ∧
      ∀ file, .promoted file ∉ walked.events) ∧
    (asModule.session = { walked.session with pending := [] } ∧
      asModule.events = walked.events ∧
      asModule.result = .module { b with
        items := waiting.map Import.declaration ++
          b.items.map fun n => (n.rewrite s.options).value }) ∧
    asScript.session = asModule.session ∧
    asScript.events = asModule.events ++ (if waiting = [] then [] else [.promoted s.file]) ∧
    asScript.result = if waiting = [] then .script asModule.result.body else asModule.result := by
  intro found walked waiting asScript asModule
  have hmodule : asModule.result = .module { b with
      items := waiting.map Import.declaration ++
        b.items.map fun n => (n.rewrite s.options).value } := by
    rw [← value_rewriteNodes]
    exact congrArg (fun v => Program.module v.result) (s.visitModule_eq b)
  have hsession : asModule.session = { walked.session with pending := [] } :=
    congrArg (fun v => v.session) (s.visitModule_eq b)
  have hevents : asModule.events = walked.events :=
    congrArg (fun v => v.events) (s.visitModule_eq b)
  refine ⟨⟨s.pending_visitBody b, s.substitutions_visitBody b, s.promoted_not_mem_visitBody b⟩,
    ⟨hsession, hevents, hmodule⟩, ?_⟩
  rcases s.visitProgram_script b with ⟨hnone, heq⟩ | ⟨hsome, heq⟩
  · have hwaiting : waiting = [] := hnone
    have hscript : asScript = { walked with result := .script walked.result } := heq
    rw [hscript, hsession, hevents, hmodule, hwaiting, if_pos rfl, if_pos rfl, List.append_nil]
    refine ⟨(setPending_of_eq_nil hwaiting).symm, rfl, ?_⟩
    exact congrArg Program.script (s.result_visitBody b)
  · have hwaiting : waiting ≠ [] := hsome
    have hscript : asScript = { asModule with
        events := asModule.events ++ [.promoted s.file] } := heq
    rw [hscript, if_neg hwaiting, if_neg hwaiting]
    exact ⟨rfl, rfl, rfl⟩

end Session

end Rebind
