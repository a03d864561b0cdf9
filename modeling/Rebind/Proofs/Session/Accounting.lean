import Rebind.Proofs.Rewrite.Decorator
import Rebind.Proofs.Rewrite.Import
import Rebind.Rewrite.Session

/-!
# What becomes of the imports of a session

A session keeps three lists: the imports that wait, the imports that it has
queued so far, and the substitutions. Only two kinds of visits empty the first
one, and none ever empties the other two, so whether an import is written twice
or forgotten depends on all the visits before.

The invariant is that nothing is lost: the imports that were emitted so far, and
behind them those that wait, are the imports that the substitutions so far need.
`Balanced` says so of a session and of what it has emitted. A note keeps the
balance with nothing emitted, a module moves what waits to what is emitted, and
from this the accounts of any sequence of visits follow.
-/

namespace Rebind

/-- The substitution that an event reports. -/
def Event.substitution? : Event → Option Substitution
  | .substituted s => some s
  | _ => none

theorem Event.filter_info (es : List Event) :
    es.filter (·.level = .info) = (es.filterMap substitution?).map substituted := by
  induction es with
  | nil => rfl
  | cons e es ih =>
      cases e with
      | substituted s => exact congrArg (substituted s :: ·) ih
      | _ => exact ih

theorem Note.substitution?_event (file : String) (n : Note) :
    (n.event file).substitution? = n.replacement?.map (·.substitution file) := by
  cases n <;> rfl

/-! ## Visits

All kinds of visits walk the nodes of a tree in the same way. They differ in
what they do with the imports that wait when the walk is over. -/

/-- Whether the imports that wait are put into a tree when it is visited. -/
def Subject.takesImports : Subject → Bool
  | .program _ | .module _ => true
  | .script _ | .node _ => false

/-- The nodes that a visit of a tree walks. -/
def Subject.items : Subject → List Node
  | .program p => p.body.items
  | .module b | .script b => b.items
  | .node n => [n]

/-- What a visit put in front of the nodes that it walked. -/
def Visit.emitted (v : Visit Subject) (t : Subject) : List Node :=
  v.result.items.take (v.result.items.length - t.items.length)

namespace Session

/-- The session when the nodes of a tree have been walked, and nothing has been
done yet with the imports that wait. -/
def walk (s : Session) (t : Subject) : Session :=
  (s.absorb (rewriteNodes s.options t.items)).session

/-- The imports that a visit puts into the tree. -/
def emits (s : Session) (t : Subject) : List Import :=
  if t.takesImports then (s.walk t).pending else []

/-- The session after several visits. -/
def after (s : Session) : List Subject → Session
  | [] => s
  | t :: ts => (s.visit t).session.after ts

theorem rewriteNodes_singleton (o : Options) (n : Node) :
    (rewriteNodes o [n]).value = [(n.rewrite o).value] ∧
      (rewriteNodes o [n]).notes = (n.rewrite o).notes := by
  rw [value_rewriteNodes, notes_rewriteNodes, List.flatMap_singleton]
  exact ⟨rfl, rfl⟩

theorem setPending_of_eq_nil {s : Session} (h : s.pending = []) :
    { s with pending := [] } = s := by
  rw [← h]

/-- A module comes out with the imports that wait in front of its items, also if
there are none. -/
theorem visitModule_eq (s : Session) (b : Body) :
    s.visitModule b =
      { s.visitBody b with
        result := { b with
          items := (s.walk (.module b)).pending.map Import.declaration ++
            (rewriteNodes s.options b.items).value }
        session := { s.walk (.module b) with pending := [] } } := by
  rw [visitModule]
  split
  · next hempty =>
      have hnone : (s.walk (.module b)).pending = [] := List.isEmpty_iff.mp hempty
      rw [hnone, setPending_of_eq_nil hnone]
      rfl
  · rfl

/-- Imports get into a script in another way than into a module, and the two ways
agree: without imports for it a script stays what it is, and with them it comes
to the module that its body would come to. -/
theorem visitProgram_script (s : Session) (b : Body) :
    ((s.walk (.script b)).pending = [] ∧
      s.visitProgram (.script b) =
        { s.visitBody b with result := .script (s.visitBody b).result }) ∨
    ((s.walk (.script b)).pending ≠ [] ∧
      s.visitProgram (.script b) =
        { s.visitModule b with
          result := .module (s.visitModule b).result
          events := (s.visitModule b).events ++ [.promoted s.file] }) := by
  rw [visitProgram]
  split
  · next hempty => exact Or.inl ⟨List.isEmpty_iff.mp hempty, rfl⟩
  · next hsome =>
      rw [visitModule, if_neg hsome]
      exact Or.inr ⟨fun hnone => hsome (List.isEmpty_iff.mpr hnone), rfl⟩

/-- All that a visit does: it walks the nodes of the tree, puts the imports that
wait then in front if the tree takes them, and reports a change of kind last. -/
theorem visit_comes_to (s : Session) (t : Subject) :
    (s.visit t).result.items =
        (s.emits t).map Import.declaration ++ (rewriteNodes s.options t.items).value ∧
      (s.visit t).session =
        (if t.takesImports then { s.walk t with pending := [] } else s.walk t) ∧
      ∃ last, (s.visit t).events =
          (rewriteNodes s.options t.items).notes.map (·.event s.file) ++ last ∧
        (last = [] ∨ last = [.promoted s.file]) := by
  cases t with
  | node n =>
      obtain ⟨hvalue, hnotes⟩ := rewriteNodes_singleton s.options n
      rw [walk, absorb, Subject.items, hnotes]
      exact ⟨hvalue.symm, rfl, [], (List.append_nil _).symm, Or.inl rfl⟩
  | script b => exact ⟨rfl, rfl, [], (List.append_nil _).symm, Or.inl rfl⟩
  | module b =>
      rw [visit, visitModule_eq]
      exact ⟨rfl, rfl, [], (List.append_nil _).symm, Or.inl rfl⟩
  | program p =>
      cases p with
      | module b =>
          rw [visit, visitProgram, visitModule_eq]
          exact ⟨rfl, rfl, [], (List.append_nil _).symm, Or.inl rfl⟩
      | script b =>
          rcases s.visitProgram_script b with ⟨hnone, heq⟩ | ⟨-, heq⟩
          · rw [visit, heq, emits, Subject.takesImports, if_pos rfl, if_pos rfl, walk]
            refine ⟨?_, (setPending_of_eq_nil hnone).symm, [], (List.append_nil _).symm,
              Or.inl rfl⟩
            exact congrArg (fun l => l.map Import.declaration ++ _) hnone.symm
          · rw [visit, heq, visitModule_eq]
            exact ⟨rfl, rfl, [.promoted s.file], rfl, Or.inr rfl⟩

theorem items_visit (s : Session) (t : Subject) :
    (s.visit t).result.items =
      (s.emits t).map Import.declaration ++ (rewriteNodes s.options t.items).value :=
  (s.visit_comes_to t).1

theorem session_visit (s : Session) (t : Subject) :
    (s.visit t).session =
      if t.takesImports then { s.walk t with pending := [] } else s.walk t :=
  (s.visit_comes_to t).2.1

theorem substitutions_of_events_visit (s : Session) (t : Subject) :
    (s.visit t).events.filterMap Event.substitution? =
      (rewriteNodes s.options t.items).hits.map (·.substitution s.file) := by
  obtain ⟨-, -, last, hevents, hlast⟩ := s.visit_comes_to t
  have hnone : last.filterMap Event.substitution? = [] := by
    rcases hlast with hlast | hlast <;> rw [hlast] <;> rfl
  rw [hevents, List.filterMap_append, hnone, List.append_nil, Noted.hits, List.filterMap_map,
    List.map_filterMap]
  exact List.filterMap_congr fun n _ => Note.substitution?_event s.file n

theorem emitted_visit (s : Session) (t : Subject) :
    (s.visit t).emitted t = (s.emits t).map Import.declaration := by
  have hlength : (rewriteNodes s.options t.items).value.length = t.items.length := by
    rw [value_rewriteNodes, List.length_map]
  rw [Visit.emitted, items_visit, List.length_append, hlength, Nat.add_sub_cancel]
  exact List.take_left

/-! ## The balance -/

/-- The imports that a session has emitted, and behind them those that wait, are
the ones that its substitutions need. It remembers these if each is to be
written once, and nothing otherwise. -/
structure Balanced (s : Session) (emitted : List Import) : Prop where
  imports : emitted ++ s.pending = s.options.imports s.substitutions
  queued : s.queued =
    if s.options.dedupeImports then s.options.imports s.substitutions else []

theorem balanced_start (o : Options) (file : String) :
    Balanced { options := o, file } [] := by
  constructor
  · exact (o.imports_nil).symm
  · rw [o.imports_nil, ite_self]

theorem account_keeps (s : Session) (n : Note) :
    (s.account n).options = s.options ∧ (s.account n).file = s.file := by
  cases n with
  | substituted r =>
      rw [account, queue]
      split
      · split <;> exact ⟨rfl, rfl⟩
      · exact ⟨rfl, rfl⟩
  | _ => exact ⟨rfl, rfl⟩

theorem substitutions_account (s : Session) (n : Note) :
    (s.account n).substitutions =
      s.substitutions ++ (n.replacement?.map (·.substitution s.file)).toList := by
  cases n with
  | substituted r => rfl
  | _ => exact (List.append_nil _).symm

theorem Balanced.account {s : Session} {emitted : List Import} (h : s.Balanced emitted)
    (n : Note) : (s.account n).Balanced emitted := by
  cases n with
  | argumentCount | notObject => exact h
  | substituted r =>
      obtain ⟨himports, hqueued⟩ := h
      have hneeds := s.options.imports_append_singleton s.substitutions (r.substitution s.file)
      rw [show (r.substitution s.file).import = r.import from rfl] at hneeds
      rw [Session.account, queue]
      by_cases hdedupe : s.options.dedupeImports = true
      · rw [if_pos hdedupe] at hqueued
        rw [if_pos hdedupe]
        by_cases hmem : r.import ∈ s.queued
        · rw [if_pos ⟨hdedupe, hqueued ▸ hmem⟩] at hneeds
          rw [if_pos hmem]
          constructor
          · rw [hneeds]
            exact himports
          · rw [hneeds, if_pos hdedupe]
            exact hqueued
        · rw [if_neg fun hboth => hmem (hqueued ▸ hboth.2)] at hneeds
          rw [if_neg hmem]
          constructor
          · rw [hneeds, ← himports, List.append_assoc]
          · rw [hneeds, if_pos hdedupe, hqueued]
      · rw [if_neg hdedupe] at hqueued
        rw [if_neg fun hboth => hdedupe hboth.1] at hneeds
        rw [if_neg hdedupe]
        constructor
        · rw [hneeds, ← himports, List.append_assoc]
        · rw [if_neg hdedupe]
          exact hqueued

/-! ## Notes, walks and visits

What one note does is carried over the notes of a walk, and from the walk to the
visit. -/

theorem foldl_account_keeps (notes : List Note) (s : Session) :
    (notes.foldl account s).options = s.options ∧ (notes.foldl account s).file = s.file := by
  induction notes generalizing s with
  | nil => exact ⟨rfl, rfl⟩
  | cons n notes ih =>
      obtain ⟨hoptions, hfile⟩ := account_keeps s n
      rw [List.foldl_cons, (ih _).1, (ih _).2, hoptions, hfile]
      exact ⟨rfl, rfl⟩

theorem substitutions_foldl_account (notes : List Note) (s : Session) :
    (notes.foldl account s).substitutions = s.substitutions ++
      (notes.filterMap Note.replacement?).map (·.substitution s.file) := by
  induction notes generalizing s with
  | nil => exact (List.append_nil _).symm
  | cons n notes ih =>
      rw [List.foldl_cons, ih, substitutions_account, (account_keeps s n).2,
        List.append_assoc, List.filterMap_cons]
      cases n.replacement? <;> rfl

theorem Balanced.foldl_account {s : Session} {emitted : List Import} (h : s.Balanced emitted)
    (notes : List Note) : (notes.foldl Session.account s).Balanced emitted := by
  induction notes generalizing s with
  | nil => exact h
  | cons n notes ih => exact ih (h.account n)

theorem Balanced.visit {s : Session} {emitted : List Import} (h : s.Balanced emitted)
    (t : Subject) : (s.visit t).session.Balanced (emitted ++ s.emits t) := by
  have hwalk : (s.walk t).Balanced emitted := h.foldl_account _
  rw [session_visit, emits]
  split
  · exact ⟨(List.append_nil _).trans hwalk.imports, hwalk.queued⟩
  · rw [List.append_nil]
    exact hwalk

theorem visit_keeps (s : Session) (t : Subject) :
    (s.visit t).session.options = s.options ∧ (s.visit t).session.file = s.file := by
  have hwalk := foldl_account_keeps (rewriteNodes s.options t.items).notes s
  rw [session_visit]
  split <;> exact hwalk

theorem substitutions_visit (s : Session) (t : Subject) :
    (s.visit t).session.substitutions = s.substitutions ++
      (rewriteNodes s.options t.items).hits.map (·.substitution s.file) := by
  have hwalk := substitutions_foldl_account (rewriteNodes s.options t.items).notes s
  rw [session_visit]
  split <;> exact hwalk

theorem pending_visit (s : Session) (t : Subject) :
    (s.visit t).session.pending = if t.takesImports then [] else (s.walk t).pending := by
  rw [session_visit]
  split <;> rfl

/-! ## Sequences of visits -/

theorem after_keeps (s : Session) (ts : List Subject) :
    (s.after ts).options = s.options ∧ (s.after ts).file = s.file := by
  induction ts generalizing s with
  | nil => exact ⟨rfl, rfl⟩
  | cons t ts ih =>
      obtain ⟨hoptions, hfile⟩ := s.visit_keeps t
      rw [after, (ih _).1, (ih _).2, hoptions, hfile]
      exact ⟨rfl, rfl⟩

theorem after_options (s : Session) (ts : List Subject) : (s.after ts).options = s.options :=
  (s.after_keeps ts).1

/-- The balance is kept over any sequence of visits, whatever they visit. -/
theorem Balanced.visitAll {s : Session} {emitted : List Import} (h : s.Balanced emitted)
    (ts : List Subject) :
    ∃ more : List Import,
      (List.zipWith Visit.emitted (s.visitAll ts) ts).flatten = more.map Import.declaration ∧
      (s.after ts).Balanced (emitted ++ more) := by
  induction ts generalizing s emitted with
  | nil => exact ⟨[], rfl, by rw [List.append_nil]; exact h⟩
  | cons t ts ih =>
      obtain ⟨more, hmore, hbalanced⟩ := ih (h.visit t)
      refine ⟨s.emits t ++ more, ?_, ?_⟩
      · rw [Session.visitAll, List.zipWith_cons_cons, List.flatten_cons, emitted_visit, hmore,
          List.map_append]
      · rw [← List.append_assoc]
        exact hbalanced

theorem substitutions_of_events_visitAll (s : Session) (ts : List Subject) :
    s.substitutions ++
        ((s.visitAll ts).flatMap (·.events)).filterMap Event.substitution? =
      (s.after ts).substitutions := by
  induction ts generalizing s with
  | nil => exact List.append_nil _
  | cons t ts ih =>
      rw [Session.visitAll, after, ← ih, List.flatMap_cons, List.filterMap_append,
        substitutions_of_events_visit, substitutions_visit, List.append_assoc]

/-- The accounts of a session, after any sequence of visits of any kinds. The
substitutions are those that were reported, one after the other. The imports in
front of the trees so far, and behind them those that wait, are the ones that the
substitutions need, in their order, each of one class as a value. The memory holds exactly these if each is to be written once,
and nothing otherwise. One more visit, of any tree, puts all the imports that
wait at its end in front of all that it walked, and none wait any more; or it
puts nothing in front, and they wait on. -/
theorem visitAll_accounts (o : Options) (file : String) (ts : List Subject) :
    let start : Session := { options := o, file }
    let run := start.visitAll ts
    let s := start.after ts
    (run.flatMap (·.events)).filter (·.level = .info) =
      s.substitutions.map Event.substituted ∧
    (∃ emitted : List Import,
      (List.zipWith Visit.emitted run ts).flatten = emitted.map Import.declaration ∧
      List.Forall₂ (fun (n : Node) i => n.ImportsClass i.className i.modulePath)
        (List.zipWith Visit.emitted run ts).flatten emitted ∧
      emitted ++ s.pending = o.imports s.substitutions) ∧
    (∀ i, i ∈ s.queued ↔
      o.dedupeImports = true ∧ ∃ h ∈ s.substitutions, h.import = i) ∧
    ∀ t, let v := s.visit t
      v.emitted t =
        (if t.takesImports then (s.walk t).pending.map Import.declaration else []) ∧
      v.result.items = v.emitted t ++ (rewriteNodes o t.items).value ∧
      v.session.pending = if t.takesImports then [] else (s.walk t).pending := by
  intro start run s
  have hoptions : s.options = o := after_options start ts
  refine ⟨?_, ?_, ?_, ?_⟩
  · rw [Event.filter_info]
    exact congrArg (List.map Event.substituted) (substitutions_of_events_visitAll start ts)
  · obtain ⟨emitted, hemitted, hbalanced⟩ := (balanced_start o file).visitAll ts
    refine ⟨emitted, hemitted, ?_, hoptions ▸ hbalanced.imports⟩
    rw [hemitted]
    exact Import.importsClass_declarations emitted
  · intro i
    obtain ⟨emitted, -, hbalanced⟩ := (balanced_start o file).visitAll ts
    have hqueued : s.queued = if o.dedupeImports then o.imports s.substitutions else [] :=
      hoptions ▸ hbalanced.queued
    rw [hqueued]
    by_cases hdedupe : o.dedupeImports = true
    · rw [if_pos hdedupe, Options.mem_imports]
      simp only [hdedupe, true_and]
    · rw [if_neg hdedupe]
      simp only [List.not_mem_nil, hdedupe, Bool.false_eq_true, false_and]
  · intro t v
    refine ⟨?_, ?_, pending_visit s t⟩
    · rw [emitted_visit, emits]
      split <;> rfl
    · rw [emitted_visit, items_visit, hoptions]

end Session

end Rebind
