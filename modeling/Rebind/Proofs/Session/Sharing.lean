import Rebind.Proofs.Rewrite.Idempotence
import Rebind.Proofs.Session.Queue

/-!
# One session for several programs

A program may be rewritten in a session of its own, or in one that has visited
others before. Of these others the session keeps what it remembers of their
imports, and nothing that the walk could see, so the statements and the
substitutions come out the same. The imports in front may be fewer: those that
an earlier program has hit are left out, if each is to be written once.

`ofPrograms` is what a new session has come to after some programs. Its balance
says what it remembers, and this says what it leaves out in front of the next
program. All the outputs are then compared by their positions.
-/

namespace Rebind

theorem pairwise_apart_iff {α β : Type} (f : α → List β) (l : List α) :
    (l.Pairwise fun a b => ∀ x ∈ f b, x ∉ f a) ↔
      ∀ i b, l[i]? = some b → ∀ x ∈ f b, x ∉ (l.take i).flatMap f := by
  rw [List.pairwise_iff_getElem]
  constructor
  · intro h i b hb x hx hmem
    obtain ⟨hi, rfl⟩ := List.getElem?_eq_some_iff.mp hb
    obtain ⟨a, ha, hxa⟩ := List.mem_flatMap.mp hmem
    obtain ⟨j, hj, rfl⟩ := List.mem_take_iff_getElem.mp ha
    exact h j i (by omega) hi (by omega) x hx hxa
  · intro h i j hi hj hij x hx hxa
    refine h j l[j] (List.getElem?_eq_getElem hj) x hx (List.mem_flatMap.mpr ⟨l[i], ?_, hxa⟩)
    exact List.mem_take_iff_getElem.mpr ⟨i, by omega, rfl⟩

namespace Session

/-! ## The session before each visit -/

theorem getElem?_visitAll (s : Session) (ts : List Subject) (i : Nat) :
    (s.visitAll ts)[i]? = ts[i]?.map fun t => (s.after (ts.take i)).visit t := by
  induction ts generalizing s i with
  | nil => rfl
  | cons t ts ih =>
      cases i with
      | zero => rfl
      | succ i =>
          rw [visitAll, List.getElem?_cons_succ, ih, List.getElem?_cons_succ, List.take_succ_cons,
            after]

theorem length_visitAll (s : Session) (ts : List Subject) :
    (s.visitAll ts).length = ts.length := by
  induction ts generalizing s with
  | nil => rfl
  | cons t ts ih => rw [visitAll, List.length_cons, ih, List.length_cons]

theorem pending_after_of_takesImports {s : Session} (hs : s.pending = []) {ts : List Subject}
    (hts : ∀ t ∈ ts, t.takesImports = true) : (s.after ts).pending = [] := by
  induction ts generalizing s with
  | nil => exact hs
  | cons t ts ih =>
      have hvisit : (s.visit t).session.pending = [] := by
        rw [pending_visit, hts t List.mem_cons_self, if_pos rfl]
      exact ih hvisit fun t' ht' => hts t' (List.mem_cons_of_mem t ht')

theorem substitutions_after (s : Session) (ts : List Subject) :
    (s.after ts).substitutions = s.substitutions ++
      ts.flatMap fun t => (rewriteNodes s.options t.items).hits.map (·.substitution s.file) := by
  induction ts generalizing s with
  | nil => exact (List.append_nil _).symm
  | cons t ts ih =>
      obtain ⟨hoptions, hfile⟩ := s.visit_keeps t
      rw [after, ih, substitutions_visit, hoptions, hfile, List.flatMap_cons, List.append_assoc]

theorem Balanced.fresh_eq {s : Session} {emitted : List Import} (h : s.Balanced emitted)
    (l : List Substitution) :
    s.fresh l =
      if s.options.dedupeImports then
        (s.options.imports l).filter (· ∉ s.substitutions.map Substitution.import)
      else s.options.imports l := by
  rw [fresh]
  by_cases hdedupe : s.options.dedupeImports = true
  · have hqueued : s.queued = s.options.imports s.substitutions := by
      rw [h.queued, if_pos hdedupe]
    rw [if_pos hdedupe, if_pos hdedupe, hqueued]
    refine List.filter_congr fun i _ => ?_
    exact decide_eq_decide.mpr (not_congr (Options.mem_imports.trans List.mem_map.symm))
  · rw [if_neg hdedupe, if_neg hdedupe]

end Session

/-! ## One more program -/

/-- The imports that a rewrite of a program hits, each as often as it is hit. -/
def Options.pairs (o : Options) (file : String) (p : Program) : List Import :=
  (o.rewrite file p).substitutions.map Substitution.import

/-- The imports of a program, without those that earlier programs have hit if
each is to be written once. -/
def Options.importsAfter (o : Options) (file : String) (earlier : List Program) (p : Program) :
    List Import :=
  if o.dedupeImports then
    (o.imports (o.rewrite file p).substitutions).filter (· ∉ earlier.flatMap (o.pairs file))
  else o.imports (o.rewrite file p).substitutions

namespace Options

theorem mem_pairs {o : Options} {file : String} {p : Program} {x : Import} :
    x ∈ o.pairs file p ↔ x ∈ o.imports (o.rewrite file p).substitutions :=
  List.mem_map.trans mem_imports.symm

theorem importsAfter_sublist (o : Options) (file : String) (earlier : List Program)
    (p : Program) :
    (o.importsAfter file earlier p).Sublist (o.imports (o.rewrite file p).substitutions) := by
  rw [importsAfter]
  split
  · exact List.filter_sublist
  · exact List.Sublist.refl _

theorem importsAfter_eq_imports_iff (o : Options) (file : String) (earlier : List Program)
    (p : Program) :
    o.importsAfter file earlier p = o.imports (o.rewrite file p).substitutions ↔
      o.dedupeImports = false ∨
        ∀ x ∈ o.pairs file p, x ∉ earlier.flatMap (o.pairs file) := by
  rw [importsAfter]
  by_cases hdedupe : o.dedupeImports = true
  · rw [if_pos hdedupe, List.filter_eq_self]
    simp only [hdedupe, Bool.true_eq_false, false_or, decide_eq_true_eq, mem_pairs]
  · rw [if_neg hdedupe]
    exact iff_of_true rfl (Or.inl (Bool.eq_false_iff.mpr hdedupe))

theorem importsAfter_eq_nil {o : Options} (hdedupe : o.dedupeImports = true) {file : String}
    {earlier : List Program} {p : Program}
    (hhit : ∀ x ∈ o.pairs file p, x ∈ earlier.flatMap (o.pairs file)) :
    o.importsAfter file earlier p = [] := by
  rw [importsAfter, if_pos hdedupe, List.filter_eq_nil_iff]
  intro x hx hkept
  exact of_decide_eq_true hkept (hhit x (mem_pairs.mpr hx))

end Options

namespace Session

/-- A new session after several programs. -/
def ofPrograms (o : Options) (file : String) (ps : List Program) : Session :=
  Session.after { options := o, file } (ps.map .program)

variable (o : Options) (file : String)

theorem ofPrograms_keeps (ps : List Program) :
    (ofPrograms o file ps).options = o ∧ (ofPrograms o file ps).file = file :=
  after_keeps _ _

theorem pending_ofPrograms (ps : List Program) : (ofPrograms o file ps).pending = [] := by
  refine pending_after_of_takesImports rfl fun t ht => ?_
  obtain ⟨p, -, rfl⟩ := List.mem_map.mp ht
  rfl

theorem substitutions_ofPrograms (ps : List Program) :
    (ofPrograms o file ps).substitutions =
      ps.flatMap fun p => (o.rewrite file p).substitutions := by
  rw [ofPrograms, substitutions_after, List.nil_append, List.flatMap_map]
  refine List.flatMap_congr fun p _ => ?_
  rw [o.substitutions_rewrite]
  rfl

theorem pending_walk_ofPrograms (earlier : List Program) (p : Program) :
    ((ofPrograms o file earlier).walk (.program p)).pending = o.importsAfter file earlier p := by
  obtain ⟨hoptions, hfile⟩ := ofPrograms_keeps o file earlier
  obtain ⟨emitted, -, hbalanced⟩ := (balanced_start o file).visitAll (earlier.map .program)
  have hmade : (rewriteNodes o p.body.items).hits.map (·.substitution file) =
      (o.rewrite file p).substitutions := (o.substitutions_rewrite file p).symm
  have hfresh := Balanced.fresh_eq hbalanced (o.rewrite file p).substitutions
  rw [← ofPrograms, substitutions_ofPrograms, List.map_flatMap, hoptions] at hfresh
  rw [pending_walk, pending_ofPrograms, hoptions, hfile, List.nil_append, Options.importsAfter]
  exact (congrArg _ hmade).trans hfresh

theorem body_visitProgram_ofPrograms (earlier : List Program) (p : Program) :
    ((ofPrograms o file earlier).visitProgram p).result.body =
      { p.body with
        items := (o.importsAfter file earlier p).map Import.declaration ++ (o.walk p).value } := by
  rw [body_visitProgram, pending_walk_ofPrograms, (ofPrograms_keeps o file earlier).1]
  rfl

theorem kind_visitProgram_ofPrograms (earlier : List Program) (p : Program) :
    ((ofPrograms o file earlier).visitProgram p).result.kind =
      if o.importsAfter file earlier p = [] then p.kind else "Module" := by
  rw [kind_visitProgram, pending_walk_ofPrograms]

theorem info_visitProgram_ofPrograms (earlier : List Program) (p : Program) :
    ((ofPrograms o file earlier).visitProgram p).events.filter (·.level = .info) =
      (o.rewrite file p).events.filter (·.level = .info) := by
  obtain ⟨hoptions, hfile⟩ := ofPrograms_keeps o file earlier
  have hshared := substitutions_of_events_visit (ofPrograms o file earlier) (.program p)
  rw [hoptions, hfile] at hshared
  have halone := o.substitutions_of_events_rewrite file p
  rw [o.substitutions_rewrite] at halone
  rw [Event.filter_info, Event.filter_info, halone]
  exact congrArg (List.map Event.substituted) hshared

/-- The output is that of a session of its own, just if no import is left out. -/
theorem result_visitProgram_ofPrograms_iff (earlier : List Program) (p : Program) :
    ((ofPrograms o file earlier).visitProgram p).result = (o.rewrite file p).program ↔
      o.importsAfter file earlier p = o.imports (o.rewrite file p).substitutions := by
  have hbody := body_visitProgram_ofPrograms o file earlier p
  have hkind := kind_visitProgram_ofPrograms o file earlier p
  constructor
  · intro heq
    rw [heq, o.body_rewrite] at hbody
    have himports := List.append_cancel_right (congrArg Body.items hbody)
    have hlength := congrArg List.length himports
    rw [List.length_map, List.length_map] at hlength
    exact (o.importsAfter_sublist file earlier p).eq_of_length hlength.symm
  · intro hall
    refine Program.eq_of_kind_of_body ?_ ?_
    · rw [hkind, hall, o.kind_rewrite]
      simp only [Options.imports_eq_nil]
    · rw [hbody, hall, o.body_rewrite]

theorem exists_script_visitProgram_ofPrograms {earlier : List Program} {b : Body}
    (hnone : o.importsAfter file earlier (.script b) = []) :
    ∃ b', ((ofPrograms o file earlier).visitProgram (.script b)).result = .script b' := by
  have hkind := kind_visitProgram_ofPrograms o file earlier (.script b)
  rw [if_pos hnone] at hkind
  cases hresult : ((ofPrograms o file earlier).visitProgram (.script b)).result with
  | script b' => exact ⟨b', rfl⟩
  | module b' =>
      rw [hresult] at hkind
      simp [Program.kind] at hkind

/-! ## All the programs -/

theorem getElem?_visitAll_programs (ps : List Program) (i : Nat) :
    (visitAll { options := o, file } (ps.map .program))[i]? =
      ps[i]?.map fun p => (ofPrograms o file (ps.take i)).visit (.program p) := by
  rw [getElem?_visitAll, List.getElem?_map, Option.map_map, ← List.map_take]
  rfl

theorem results_visitAll_programs_iff (ps : List Program) :
    (visitAll { options := o, file } (ps.map .program)).map (·.result) =
        ps.map (fun p => .program (o.rewrite file p).program) ↔
      ∀ i p, ps[i]? = some p →
        ((ofPrograms o file (ps.take i)).visitProgram p).result =
          (o.rewrite file p).program := by
  constructor
  · intro heq i p hp
    have hi := congrArg (·[i]?) heq
    simp only [List.getElem?_map, getElem?_visitAll_programs, hp, Option.map_some] at hi
    exact Subject.program.inj (Option.some.inj hi)
  · intro h
    refine List.ext_getElem? fun i => ?_
    rw [List.getElem?_map, List.getElem?_map, getElem?_visitAll_programs]
    cases hp : ps[i]? with
    | none => rfl
    | some p => exact congrArg (fun q => some (Subject.program q)) (h i p hp)

/-- One new session for several programs, against a session for each. The
substitutions that are reported and the statements are the same. In front of
the statements, the shared session leaves out what an earlier program has hit,
if each import is to be written once. So all the outputs are the same just if
nothing is left out, and a script stays one if everything is. -/
theorem visitAll_programs_against_rewrite (ps : List Program) :
    let run := visitAll { options := o, file } (ps.map .program)
    run.length = ps.length ∧
    (∀ i p, ps[i]? = some p → ∃ v q statements,
      run[i]? = some v ∧ v.result = .program q ∧
      v.events.filter (·.level = .info) =
        (o.rewrite file p).events.filter (·.level = .info) ∧
      (o.rewrite file p).program.body = { p.body with
        items := (o.imports (o.rewrite file p).substitutions).map Import.declaration ++
          statements } ∧
      q.body = { p.body with
        items := (o.importsAfter file (ps.take i) p).map Import.declaration ++ statements } ∧
      q.kind = if o.importsAfter file (ps.take i) p = [] then p.kind else "Module") ∧
    (run.map (·.result) = ps.map (fun p => .program (o.rewrite file p).program) ↔
      o.dedupeImports = false ∨
        ps.Pairwise fun p q => ∀ x ∈ o.pairs file q, x ∉ o.pairs file p) ∧
    (o.dedupeImports = true → ∀ i b, ps[i]? = some (.script b) →
      (∀ x ∈ o.pairs file (.script b), x ∈ (ps.take i).flatMap (o.pairs file)) →
      ∃ v b', run[i]? = some v ∧ v.result = .program (.script b')) := by
  intro run
  have hvisit : ∀ i p, ps[i]? = some p →
      run[i]? = some ((ofPrograms o file (ps.take i)).visit (.program p)) := by
    intro i p hp
    rw [getElem?_visitAll_programs, hp]
    rfl
  refine ⟨?_, ?_, ?_, ?_⟩
  · rw [length_visitAll, List.length_map]
  · intro i p hp
    exact ⟨_, _, (o.walk p).value, hvisit i p hp, rfl, info_visitProgram_ofPrograms o file _ p,
      o.body_rewrite file p, body_visitProgram_ofPrograms o file _ p,
      kind_visitProgram_ofPrograms o file _ p⟩
  · rw [results_visitAll_programs_iff, pairwise_apart_iff]
    simp only [result_visitProgram_ofPrograms_iff, Options.importsAfter_eq_imports_iff]
    by_cases hdedupe : o.dedupeImports = false
    · simp only [hdedupe, true_or, implies_true]
    · simp only [hdedupe, Bool.true_eq_false, false_or]
  · intro hdedupe i b hp hhit
    obtain ⟨b', hscript⟩ := exists_script_visitProgram_ofPrograms o file
      (Options.importsAfter_eq_nil hdedupe hhit)
    exact ⟨_, b', hvisit i _ hp, congrArg Subject.program hscript⟩

/-- Of two equal scripts the second one hits what the first one has hit: it is
reported and stays a script, which it would not in a session of its own. -/
theorem visitAll_same_script_twice :
    let o : Options := { table := (Table.ofList [⟨"A", "B", "./b"⟩]).1, dedupeImports := true }
    let script : Program := .script (Program.providing "Component" "A").body
    let run := visitAll { options := o, file := "a.ts" } ([script, script].map .program)
    (∃ v, run[1]? = some v ∧
      v.events.filter (·.level = .info) = [.substituted ⟨"a.ts", "A", "B", "./b"⟩]) ∧
    (∃ v b, run[1]? = some v ∧ v.result = .program (.script b)) ∧
    run.map (·.result) ≠
      [script, script].map (fun p => .program (o.rewrite "a.ts" p).program) := by
  intro o script run
  obtain ⟨-, heach, hsame, hscript⟩ := visitAll_programs_against_rewrite o "a.ts" [script, script]
  refine ⟨?_, hscript rfl 1 _ rfl fun x hx => List.mem_flatMap.mpr ⟨script, by simp, hx⟩, ?_⟩
  · obtain ⟨v, -, -, hv, -, hinfo, -⟩ := heach 1 script rfl
    exact ⟨v, hv, hinfo.trans (by decide)⟩
  · intro heq
    have hhit : (⟨"B", "./b"⟩ : Import) ∈ o.pairs "a.ts" script := by decide
    rcases hsame.mp heq with hdedupe | hapart
    · cases hdedupe
    · exact (List.pairwise_cons.mp hapart).1 script List.mem_cons_self _ hhit hhit

end Session

end Rebind
