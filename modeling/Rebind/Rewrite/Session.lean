import Rebind.Event
import Rebind.Rewrite.Substitution
import Rebind.Rewrite.Walk

/-!
# Sessions

A session rewrites one tree after the other. Every class that is replaced queues
an import, and the queue is emptied into the next module: its imports are put in
front of the items of that module. A script cannot import, so a program that is
a script becomes a module when there are imports for it. When a script or any
smaller tree is visited on its own, its imports wait. A session that is to write
each import once never forgets which ones it has queued, so it writes each once
for all its trees together.
-/

namespace Rebind

/-- What a session has come to. -/
structure Session where
  options : Options
  file : String
  /-- The imports that wait for a module. -/
  pending : List Import := []
  /-- The imports that were queued so far, if each is to be written once. -/
  queued : List Import := []
  /-- The classes that were replaced so far. -/
  substitutions : List Substitution := []

/-- What a visit comes to: the tree, the session after it, and what was reported. -/
structure Visit (α : Type) where
  result : α
  session : Session
  events : List Event

namespace Session

/-- Queues an import, unless each is to be written once and this one was queued before. -/
def queue (s : Session) (i : Import) : Session :=
  if s.options.dedupeImports then
    if i ∈ s.queued then s
    else { s with pending := s.pending ++ [i], queued := s.queued ++ [i] }
  else { s with pending := s.pending ++ [i] }

/-- Accounts for a note. -/
def account (s : Session) : Note → Session
  | .substituted r =>
      { s.queue r.import with substitutions := s.substitutions ++ [r.substitution s.file] }
  | _ => s

/-- Accounts for notes, and reports them. -/
def absorb {α : Type} (s : Session) (m : Noted α) : Visit α :=
  ⟨m.value, m.notes.foldl account s, m.notes.map (·.event s.file)⟩

/-- Visits a tree that is no program. -/
def visitNode (s : Session) (n : Node) : Visit Node :=
  s.absorb (n.rewrite s.options)

/-- Visits the body of a program, and leaves its imports waiting. -/
def visitBody (s : Session) (b : Body) : Visit Body :=
  let v := s.absorb (rewriteNodes s.options b.items)
  { v with result := { b with items := v.result } }

/-- Visits the body of a module. If imports wait at its end, they are put in front of the items, and
none wait any more. -/
def visitModule (s : Session) (b : Body) : Visit Body :=
  let v := s.visitBody b
  if v.session.pending.isEmpty then v
  else
    let imports := v.session.pending.map Import.declaration
    { v with
      result := { v.result with items := imports ++ v.result.items }
      session := { v.session with pending := [] } }

/-- Visits a program. If there are imports for a script, a module takes its place, with the imports
and the statements of the script for its items. -/
def visitProgram (s : Session) : Program → Visit Program
  | .module b =>
      let v := s.visitModule b
      { v with result := .module v.result }
  | .script b =>
      let v := s.visitBody b
      if v.session.pending.isEmpty then { v with result := .script v.result }
      else
        let script := v.result
        let items := v.session.pending.map Import.declaration ++ script.items
        ⟨.module { span := script.span, items, interpreter := script.interpreter },
          { v.session with pending := [] }, v.events ++ [.promoted s.file]⟩

end Session

/-! ## Visits of any kind -/

/-- A tree that can be visited: a program, the body of one by itself, or anything smaller. -/
inductive Subject where
  | program (p : Program)
  | module (b : Body)
  | script (b : Body)
  | node (n : Node)

/-- Visits a tree. -/
def Session.visit (s : Session) : Subject → Visit Subject
  | .program p =>
      let v := s.visitProgram p
      { v with result := .program v.result }
  | .module b =>
      let v := s.visitModule b
      { v with result := .module v.result }
  | .script b =>
      let v := s.visitBody b
      { v with result := .script v.result }
  | .node n =>
      let v := s.visitNode n
      { v with result := .node v.result }

/-- Visits several trees in turn. -/
def Session.visitAll (s : Session) : List Subject → List (Visit Subject)
  | [] => []
  | t :: ts =>
      let v := s.visit t
      v :: v.session.visitAll ts

/-! ## One program -/

/-- What a rewrite comes to. -/
structure Outcome where
  program : Program
  substitutions : List Substitution
  events : List Event

/-- Rewrites one program, in a session of its own. -/
def Options.rewrite (o : Options) (file : String) (p : Program) : Outcome :=
  let v := Session.visitProgram { options := o, file } p
  ⟨v.result, v.session.substitutions, v.events⟩

end Rebind
