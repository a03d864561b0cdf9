import Rebind.Proofs.Rewrite.Idempotence
import Rebind.Proofs.Rewrite.Report

/-!
# What the statements do not depend on

Paths, files and the way in which imports are written go into the imports and
into the reports, and nothing of them comes back into the statements. Options
that name the same decorators and keys, and the same class for every class, are
alike to the walk, and two rewrites with such options are compared level by
level: an element of a list of providers is rewritten in the same way, so is a
decorator, and so is a tree.

The two sessions hold different lists of imports at every point. Whether a
script becomes a module reads one of these lists, and is the same in both for
the reason that neither is empty unless there are no substitutions at all.
-/

namespace Rebind

/-- A note without the path of a module. -/
def Note.withoutPath : Note → Note
  | .substituted r => .substituted { r with modulePath := "" }
  | n => n

/-- An event without the texts that name a file or the path of a module. -/
def Event.withoutPaths : Event → Event
  | .substituted s => .substituted { s with file := "", modulePath := "" }
  | .argumentCount _ count => .argumentCount "" count
  | .notObject _ => .notObject ""
  | .promoted _ => .promoted ""
  | e => e

theorem Note.withoutPaths_event (n : Note) (file : String) :
    (n.event file).withoutPaths = n.withoutPath.event "" := by
  cases n <;> rfl

namespace Options

open Node

/-- The same names, and the same class for every class. Paths may differ, and so
may all else. -/
structure Alike (o o' : Options) : Prop where
  vocabulary : o.vocabulary = o'.vocabulary
  classes : ∀ name, o.table.className? name = o'.table.className? name

namespace Alike

variable {o o' : Options}

/-! ## The walk -/

theorem lookup (h : Alike o o') (i : Ident) : o.lookup i = o'.lookup i := by
  rw [lookup_eq_className?, lookup_eq_className?, h.classes]

theorem rewriteProvider (h : Alike o o') (e : Node) :
    (o.rewriteProvider e).value = (o'.rewriteProvider e).value := by
  rw [value_rewriteProvider, value_rewriteProvider, h.vocabulary]
  cases o'.vocabulary.candidate? e with
  | none => rfl
  | some x => exact congrArg (o'.vocabulary.bound e) (h.lookup x)

theorem image (h : Alike o o') (d : Node) : o.image d = o'.image d := by
  have hnames : o.decorators = o'.decorators := congrArg Vocabulary.decorators h.vocabulary
  cases hd : d.metadata? o.decorators with
  | none =>
      rw [(rewriteDecorator_of_none hd).1, (rewriteDecorator_of_none (o := o') (hnames ▸ hd)).1]
  | some m =>
      obtain ⟨f, ps⟩ := m
      have helements : (providerElements ps).map (fun e => (o.rewriteProvider e).value) =
          (providerElements ps).map fun e => (o'.rewriteProvider e).value :=
        List.map_congr_left fun e _ => h.rewriteProvider e
      rw [(rewriteDecorator_of_some hd).1, (rewriteDecorator_of_some (o := o') (hnames ▸ hd)).1,
        value_rewriteMetadata, value_rewriteMetadata, helements]

theorem rewrite (h : Alike o o') (n : Node) : (n.rewrite o).value = (n.rewrite o').value := by
  have hcongr : Redecorated o'.image n (n.rewrite o).value :=
    (n.redecorated_rewrite o).congr fun _ _ d _ => h.image d
  exact hcongr.unique (n.redecorated_rewrite o')

theorem value_walk (h : Alike o o') (p : Program) : (o.walk p).value = (o'.walk p).value := by
  rw [walk, walk, value_rewriteNodes, value_rewriteNodes]
  exact List.map_congr_left fun n _ => h.rewrite n

/-! ## The notes -/

theorem find?_withoutPath (h : Alike o o') (name : String) :
    (o.table.find? name).map (fun r => (Note.substituted r).withoutPath) =
      (o'.table.find? name).map fun r => (Note.substituted r).withoutPath := by
  have hmade : ∀ t : Table, (t.find? name).map (fun r => (Note.substituted r).withoutPath) =
      (t.className? name).map fun c => .substituted ⟨name, c, ""⟩ := by
    intro t
    rw [Table.className?]
    cases hr : t.find? name with
    | none => rfl
    | some r =>
        rw [← Table.original_of_find? hr]
        rfl
  rw [hmade, hmade, h.classes]

theorem notes_rewriteDecorator (h : Alike o o') (d : Node) :
    (o.rewriteDecorator d).notes.map Note.withoutPath =
      (o'.rewriteDecorator d).notes.map Note.withoutPath := by
  rw [Options.notes_rewriteDecorator, Options.notes_rewriteDecorator, h.vocabulary,
    List.map_append, List.map_append, List.map_map, List.map_map, List.map_filterMap,
    List.map_filterMap]
  congr 1
  refine List.filterMap_congr fun e _ => ?_
  cases o'.vocabulary.candidate? e with
  | none => rfl
  | some x => exact h.find?_withoutPath x.name

theorem notes_walk (h : Alike o o') (p : Program) :
    (o.walk p).notes.map Note.withoutPath = (o'.walk p).notes.map Note.withoutPath := by
  rw [Options.notes_walk, Options.notes_walk, List.map_flatMap, List.map_flatMap]
  exact List.flatMap_congr fun d _ => h.notes_rewriteDecorator d

/-! ## The outcome -/

theorem substitutions (h : Alike o o') (file file' : String) (p : Program) :
    (o.rewrite file p).substitutions.map (fun s => (s.original, s.className)) =
      (o'.rewrite file' p).substitutions.map fun s => (s.original, s.className) := by
  have hpairs : ∀ (o : Options) (file : String),
      (o.rewrite file p).substitutions.map (fun s => (s.original, s.className)) =
        ((o.walk p).notes.map Note.withoutPath).filterMap fun n =>
          n.replacement?.map fun r => (r.original, r.className) := by
    intro o file
    rw [o.substitutions_rewrite, Noted.hits, List.map_map, List.map_filterMap, List.filterMap_map]
    refine List.filterMap_congr fun n _ => ?_
    cases n <;> rfl
  rw [hpairs, hpairs, h.notes_walk]

theorem kind (h : Alike o o') (file file' : String) (p : Program) :
    (o.rewrite file p).program.kind = (o'.rewrite file' p).program.kind := by
  have hnil : (o.rewrite file p).substitutions = [] ↔
      (o'.rewrite file' p).substitutions = [] := by
    rw [← List.map_eq_nil_iff, h.substitutions file file', List.map_eq_nil_iff]
  rw [kind_rewrite, kind_rewrite]
  simp only [hnil]

theorem events (h : Alike o o') (file file' : String) (p : Program) :
    (o.rewrite file p).events.map Event.withoutPaths =
      (o'.rewrite file' p).events.map Event.withoutPaths := by
  have hnotes : ∀ (notes : List Note) (file : String),
      (notes.map (·.event file)).map Event.withoutPaths =
        (notes.map Note.withoutPath).map (·.event "") := by
    intro notes file
    rw [List.map_map, List.map_map]
    exact List.map_congr_left fun n _ => n.withoutPaths_event file
  rw [events_rewrite, events_rewrite, List.map_append, List.map_append, hnotes, hnotes,
    h.notes_walk, h.kind file file']
  split <;> rfl

end Alike

/-- Two rewrites of a program, with options that are alike, for any two files.
Behind the imports stand the same statements, the program is of the same kind,
the same classes were replaced by the same classes, and what is reported differs
in files and paths alone. -/
theorem rewrite_of_alike {o o' : Options} (h : Alike o o') (file file' : String) (p : Program) :
    (∃ statements,
      (o.rewrite file p).program.body = { p.body with
        items := (o.imports (o.rewrite file p).substitutions).map Import.declaration ++
          statements } ∧
      (o'.rewrite file' p).program.body = { p.body with
        items := (o'.imports (o'.rewrite file' p).substitutions).map Import.declaration ++
          statements }) ∧
    (o.rewrite file p).program.kind = (o'.rewrite file' p).program.kind ∧
    (o.rewrite file p).substitutions.map (fun s => (s.original, s.className)) =
      (o'.rewrite file' p).substitutions.map (fun s => (s.original, s.className)) ∧
    (o.rewrite file p).events.map Event.withoutPaths =
      (o'.rewrite file' p).events.map Event.withoutPaths := by
  refine ⟨⟨(o.walk p).value, o.body_rewrite file p, ?_⟩, h.kind file file' p,
    h.substitutions file file' p, h.events file file' p⟩
  rw [o'.body_rewrite, h.value_walk]

/-- The same class from another path, for another file, written once: the
reports differ, and without files and paths they do not. -/
theorem rewrite_of_alike_from_elsewhere :
    let o : Options := { table := (Table.ofList [⟨"A", "B", "./b"⟩]).1 }
    let o' : Options := { table := (Table.ofList [⟨"A", "B", "lib"⟩]).1, dedupeImports := true }
    let p : Program := .script (Program.providing "Component" "A").body
    Alike o o' ∧
      (o.rewrite "1.ts" p).program.kind = (o'.rewrite "2.ts" p).program.kind ∧
      (o.rewrite "1.ts" p).events ≠ (o'.rewrite "2.ts" p).events ∧
      (o.rewrite "1.ts" p).events.map Event.withoutPaths =
        (o'.rewrite "2.ts" p).events.map Event.withoutPaths := by
  intro o o' p
  have halike : Alike o o' := by
    refine ⟨rfl, fun name => ?_⟩
    rw [Table.className?, Table.className?, Table.find?_ofList, Table.find?_ofList]
    cases hname : "A" == name <;> simp [hname]
  obtain ⟨-, hkind, -, hevents⟩ := rewrite_of_alike halike "1.ts" "2.ts" p
  exact ⟨halike, hkind, by decide, hevents⟩

end Options

end Rebind
