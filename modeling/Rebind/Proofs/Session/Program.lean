import Rebind.Proofs.Session.Accounting

/-!
# What a rewrite of one program comes to

A visit of a program ends in one of three ways: a module takes the imports that
wait, a script becomes a module to take them, or there are none and a script
stays what it is. In all three the imports that wait stand in front of the items
that were walked, and this is all that later proofs are told of the ways.

A rewrite has a session of its own, so the balance of that session starts and
ends with the program: the imports in front of it are the ones that its own
substitutions need.

Behind them the statements come out as they went in, except for the decorators
of the outermost class declarations. Each of these becomes its image, which is
made from the options and from the decorator and knows neither the file nor the
place. Class declarations that stand inside others are not looked into. Those in
the bodies stay where they are; those in the arguments of a decorator go where
their provider or their property goes.
-/

namespace Rebind

theorem Program.eq_of_kind_of_body {p q : Program} (hkind : p.kind = q.kind)
    (hbody : p.body = q.body) : p = q := by
  cases p <;> cases q <;> simp_all [kind, body]

namespace Session

/-- All that a visit of a program does, whichever of the ways it goes. -/
theorem visitProgram_comes_to (s : Session) (p : Program) :
    (s.visitProgram p).result.body =
        { p.body with
          items := (s.walk (.program p)).pending.map Import.declaration ++
            (rewriteNodes s.options p.body.items).value } ∧
      (s.visitProgram p).result.kind =
        (if (s.walk (.program p)).pending = [] then p.kind else "Module") ∧
      (s.visitProgram p).events =
        (rewriteNodes s.options p.body.items).notes.map (·.event s.file) ++
          if (s.visitProgram p).result.kind = p.kind then [] else [.promoted s.file] := by
  cases p with
  | module b =>
      rw [visitProgram, visitModule_eq]
      exact ⟨rfl, (ite_self _).symm, (List.append_nil _).symm⟩
  | script b =>
      rcases s.visitProgram_script b with ⟨hnone, heq⟩ | ⟨hsome, heq⟩
      · have hprogram : (s.walk (.program (.script b))).pending = [] := hnone
        rw [heq, if_pos hprogram, hprogram]
        exact ⟨rfl, rfl, (List.append_nil _).symm⟩
      · have hprogram : (s.walk (.program (.script b))).pending ≠ [] := hsome
        rw [heq, visitModule_eq, if_neg hprogram]
        exact ⟨rfl, rfl, rfl⟩

theorem body_visitProgram (s : Session) (p : Program) :
    (s.visitProgram p).result.body =
      { p.body with
        items := (s.walk (.program p)).pending.map Import.declaration ++
          (rewriteNodes s.options p.body.items).value } :=
  (s.visitProgram_comes_to p).1

theorem kind_visitProgram (s : Session) (p : Program) :
    (s.visitProgram p).result.kind =
      if (s.walk (.program p)).pending = [] then p.kind else "Module" :=
  (s.visitProgram_comes_to p).2.1

theorem events_visitProgram (s : Session) (p : Program) :
    (s.visitProgram p).events =
      (rewriteNodes s.options p.body.items).notes.map (·.event s.file) ++
        if (s.visitProgram p).result.kind = p.kind then [] else [.promoted s.file] :=
  (s.visitProgram_comes_to p).2.2

end Session

namespace Options

/-- The walk over the items of a program. -/
def walk (o : Options) (p : Program) : Noted (List Node) :=
  rewriteNodes o p.body.items

theorem redecorated_walk (o : Options) (p : Program) :
    Redecorated o.image (.list p.body.items) (.list (o.walk p).value) := by
  have hlist := (Node.list p.body.items).redecorated_rewrite o
  rw [Node.rewrite] at hlist
  exact hlist

theorem substitutions_rewrite (o : Options) (file : String) (p : Program) :
    (o.rewrite file p).substitutions = (o.walk p).hits.map (·.substitution file) :=
  (Session.substitutions_visit { options := o, file } (.program p)).trans (List.nil_append _)

theorem substitutions_of_events_rewrite (o : Options) (file : String) (p : Program) :
    (o.rewrite file p).events.filterMap Event.substitution? =
      (o.rewrite file p).substitutions :=
  (Session.substitutions_of_events_visit { options := o, file } (.program p)).trans
    (o.substitutions_rewrite file p).symm

/-- What waits at the end of the walk is what the substitutions need. -/
theorem pending_walk (o : Options) (file : String) (p : Program) :
    (Session.walk { options := o, file } (.program p)).pending =
      o.imports (o.rewrite file p).substitutions := by
  have himports := ((Session.balanced_start o file).visit (.program p)).imports
  rw [Session.pending_visit, (Session.visit_keeps _ _).1] at himports
  exact (List.append_nil _).symm.trans himports

theorem body_rewrite (o : Options) (file : String) (p : Program) :
    (o.rewrite file p).program.body =
      { p.body with
        items := (o.imports (o.rewrite file p).substitutions).map Import.declaration ++
          (o.walk p).value } := by
  have hbody := Session.body_visitProgram { options := o, file } p
  rw [pending_walk] at hbody
  exact hbody

theorem kind_rewrite (o : Options) (file : String) (p : Program) :
    (o.rewrite file p).program.kind =
      if (o.rewrite file p).substitutions = [] then p.kind else "Module" := by
  have hkind := Session.kind_visitProgram { options := o, file } p
  rw [pending_walk] at hkind
  simp only [imports_eq_nil] at hkind
  exact hkind

/-- The nodes of the program that comes out are the imports that were needed,
and behind them the one list of nodes that is the list which went in with the
decorators of the outermost class declarations replaced by their images. In an
image there are the class declarations of its decorator, each as it was. -/
theorem rewrite_redecorates (o : Options) (file : String) (p : Program) :
    ∃ items : List Node,
      (o.rewrite file p).program.body =
        { p.body with
          items := (o.imports (o.rewrite file p).substitutions).map Import.declaration ++
            items } ∧
      (o.rewrite file p).program.kind =
        (if (o.rewrite file p).substitutions = [] then p.kind else "Module") ∧
      (∀ t, Redecorated o.image (.list p.body.items) t ↔ t = .list items) ∧
      ∀ d, (o.image d).classes.Perm d.classes := by
  have hwalk := o.redecorated_walk p
  refine ⟨(o.walk p).value, o.body_rewrite file p, o.kind_rewrite file p, fun t => ?_,
    o.classes_image_perm⟩
  constructor
  · intro ht
    exact ht.unique hwalk
  · intro ht
    rw [ht]
    exact hwalk

end Options

end Rebind
