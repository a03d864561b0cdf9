import Mathlib.Data.List.Forall2
import Rebind.Proofs.Rewrite.Idempotence
import Rebind.Proofs.Rewrite.Report
import Rebind.Proofs.Session.Metadata

/-!
# Decorators that are left alone

There is a chain of conditions on a decorator before anything in it is rewritten, and it can fail
at any of them. Two of the failures are reported and the others are not, but none of them changes
the decorator or replaces a class.

`Changeable` and `Skipped` say from the shape of a decorator alone that the whole chain holds, and
that it fails where there is a report. What a rewrite does to the decorators of a program, one by
one, is all that it does to the program: the rest is the imports, and these come from classes that
were replaced.
-/

namespace Rebind

namespace Node

/-- The call of one of the names with a single object literal that has a list of providers. -/
def Changeable (names : List String) (d : Node) : Prop :=
  ∃ (f : MetadataFrame) (ps : List Node),
    d = f.fill ps ∧ f.callee.name ∈ names ∧ ∃ p ∈ ps, ∃ es, p.HoldsProviders es

/-- The call of one of the names with arguments that are no metadata, and what is reported of it. A
single spread argument is in neither case. -/
inductive Skipped (names : List String) (file : String) : Node → Event → Prop
  | argumentCount {span callSpan : Span} {context : Nat} {callee : Ident} {arguments : List Node}
      {typeArguments : Node} (hname : callee.name ∈ names) (h : arguments.length ≠ 1) :
      Skipped names file
        (.decorator span (.call callSpan context (.ident callee) arguments typeArguments))
        (.argumentCount file arguments.length)
  | notObject {span callSpan : Span} {context : Nat} {callee : Ident} {e typeArguments : Node}
      (hname : callee.name ∈ names) (h : ∀ objectSpan ps, e ≠ .object objectSpan ps) :
      Skipped names file
        (.decorator span (.call callSpan context (.ident callee) [.argument none e] typeArguments))
        (.notObject file)

/-! ## Decorators with lists of providers -/

theorem changeable_iff {names : List String} {d : Node} :
    d.Changeable names ↔
      ∃ f ps, d.metadata? names = some (f, ps) ∧ ps.any (·.isProvidersArray) = true := by
  constructor
  · intro h
    obtain ⟨f, ps, rfl, hname, p, hp, es, hes⟩ := h
    have hmetadata := MetadataFrame.metadata?_fill (List.contains_iff_mem.mpr hname) ps
    refine ⟨f, ps, hmetadata, List.any_eq_true.mpr ⟨p, hp, ?_⟩⟩
    rw [isProvidersArray_eq, holdsProviders_iff.mp hes]
    rfl
  · intro h
    obtain ⟨f, ps, hmetadata, hany⟩ := h
    obtain ⟨rfl, hname⟩ := eq_fill_of_metadata? hmetadata
    obtain ⟨p, hp, hsome⟩ := List.any_eq_true.mp hany
    rw [isProvidersArray_eq] at hsome
    obtain ⟨es, hes⟩ := Option.isSome_iff_exists.mp hsome
    exact ⟨f, ps, rfl, List.contains_iff_mem.mp hname, p, hp, es, holdsProviders_iff.mpr hes⟩

instance (names : List String) (d : Node) : Decidable (d.Changeable names) :=
  decidable_of_iff
    (((d.metadata? names).any fun m => m.2.any (·.isProvidersArray)) = true) <| by
      rw [changeable_iff, Option.any_eq_true]
      exact ⟨fun ⟨m, hm, hany⟩ => ⟨m.1, m.2, hm, hany⟩,
        fun ⟨f, ps, hm, hany⟩ => ⟨(f, ps), hm, hany⟩⟩

theorem Skipped.level_eq {names : List String} {file : String} {d : Node} {e : Event}
    (h : d.Skipped names file e) : e.level = .debug := by
  cases h <;> rfl

end Node

/-! ## The report of a decorator that is skipped -/

theorem Note.ofArguments_of_length {arguments : List Node} (h : arguments.length ≠ 1) :
    Note.ofArguments arguments = [.argumentCount arguments.length] :=
  Note.ofArguments.eq_4 arguments (fun _ _ heq => h (heq ▸ rfl)) (fun _ heq => h (heq ▸ rfl))
    (fun _ heq => h (heq ▸ rfl))

theorem Note.ofArguments_of_not_object {e : Node} (h : ∀ span ps, e ≠ .object span ps) :
    Note.ofArguments [.argument none e] = [.notObject] :=
  Note.ofArguments.eq_2 e h

namespace Vocabulary

/-- What is reported of a decorator that is skipped, if anything is. -/
def skip? (v : Vocabulary) (file : String) (d : Node) : Option Event :=
  (v.skips d).head?.map (·.event file)

variable {v : Vocabulary} {file : String} {d : Node}

theorem skips_eq_toList (v : Vocabulary) (d : Node) : v.skips d = (v.skips d).head?.toList := by
  rw [skips.eq_def]
  split
  · split
    · next arguments _ _ =>
        rw [Note.ofArguments.eq_def]
        split <;> rfl
    · rfl
  · rfl

theorem toList_skip? (v : Vocabulary) (file : String) (d : Node) :
    (v.skip? file d).toList = (v.skips d).map (·.event file) := by
  rw [skip?, v.skips_eq_toList d]
  cases (v.skips d).head? <;> rfl

theorem skip?_eq_some {e : Event} :
    v.skip? file d = some e ↔ d.Skipped v.decorators file e := by
  constructor
  · intro h
    rw [skip?, skips.eq_def] at h
    split at h
    · split at h
      · next hname =>
          have hmem := List.contains_iff_mem.mp hname
          rw [Note.ofArguments.eq_def] at h
          split at h
          · cases h
          · next hno =>
              cases h
              exact .notObject hmem hno
          · cases h
          · next arguments _ _ hone =>
              cases h
              refine .argumentCount hmem fun hlength => ?_
              obtain ⟨a, rfl⟩ := List.length_eq_one_iff.mp hlength
              exact hone a rfl
      · cases h
    · cases h
  · intro h
    cases h with
    | argumentCount hname hlength =>
        rw [skip?, skips, if_pos (List.contains_iff_mem.mpr hname),
          Note.ofArguments_of_length hlength]
        rfl
    | notObject hname hno =>
        rw [skip?, skips, if_pos (List.contains_iff_mem.mpr hname),
          Note.ofArguments_of_not_object hno]
        rfl

theorem level_of_mem_skips {n : Note} (h : n ∈ v.skips d) (file : String) :
    (n.event file).level = .debug := by
  have hmem : n.event file ∈ (v.skip? file d).toList :=
    toList_skip? v file d ▸ List.mem_map_of_mem h
  exact (skip?_eq_some.mp (Option.mem_toList.mp hmem)).level_eq

end Vocabulary

namespace Options

open Node

/-! ## One decorator -/

theorem rewriteMetadata_of_none {o : Options} {ps : List Node}
    (h : ¬ ps.any (·.isProvidersArray) = true) : o.rewriteMetadata ps = pure ps := by
  rw [rewriteMetadata, if_neg h]

theorem rewriteDecorator_of_not_changeable {o : Options} {d : Node}
    (h : ¬ d.Changeable o.decorators) :
    o.image d = d ∧ (o.rewriteDecorator d).notes = o.vocabulary.skips d := by
  cases hd : d.metadata? o.decorators with
  | none => exact ⟨(rewriteDecorator_of_none hd).1, notes_rewriteDecorator_of_none hd⟩
  | some m =>
      obtain ⟨f, ps⟩ := m
      have hnone : ¬ ps.any (·.isProvidersArray) = true := fun hany =>
        h (changeable_iff.mpr ⟨f, ps, hd, hany⟩)
      obtain ⟨himage, hnotes⟩ := rewriteDecorator_of_some hd
      have hskips : o.vocabulary.skips d = [] := skips_of_some hd
      rw [himage, hnotes, rewriteMetadata_of_none hnone, hskips, (eq_fill_of_metadata? hd).1]
      exact ⟨rfl, rfl⟩

/-- A decorator that is not what it was had metadata to be rewritten, and differs in the properties
of it. -/
theorem image_eq_self_or_fill (o : Options) (d : Node) :
    o.image d = d ∨ ∃ f ps ps', d = MetadataFrame.fill f ps ∧ o.image d = f.fill ps' ∧
      d.Changeable o.decorators := by
  by_cases h : d.Changeable o.decorators
  · obtain ⟨f, ps, hd, -⟩ := changeable_iff.mp h
    exact Or.inr ⟨f, ps, _, (eq_fill_of_metadata? hd).1, (rewriteDecorator_of_some hd).1, h⟩
  · exact Or.inl (rewriteDecorator_of_not_changeable h).1

/-- Of what is noted of a decorator, the skip is for debugging and the replaced classes are not. -/
theorem filter_debug_rewriteDecorator (o : Options) (file : String) (d : Node) :
    ((o.rewriteDecorator d).notes.map (·.event file)).filter (·.level = .debug) =
      (o.vocabulary.skip? file d).toList := by
  rw [notes_rewriteDecorator, List.map_append, List.filter_append, Vocabulary.toList_skip?]
  refine (congrArg₂ (· ++ ·) (List.filter_eq_self.mpr ?_) (List.filter_eq_nil_iff.mpr ?_)).trans
    (List.append_nil _)
  · intro e he
    obtain ⟨n, hn, rfl⟩ := List.mem_map.mp he
    exact decide_eq_true (Vocabulary.level_of_mem_skips hn file)
  · intro e he
    obtain ⟨n, hn, rfl⟩ := List.mem_map.mp he
    obtain ⟨r, -, rfl⟩ := List.mem_map.mp hn
    exact Bool.false_ne_true

/-! ## All decorators of a program -/

section Program

variable (o : Options) (file : String) (p : Program)

theorem decorators_rewrite :
    (o.rewrite file p).program.decorators = p.decorators.map o.image := by
  have hdecorators : ∀ q : Program, q.decorators =
      (q.body.items.flatMap Node.classes).flatMap Node.decorators :=
    fun _ => List.flatMap_assoc.symm
  rw [hdecorators, hdecorators, classes_rewrite, List.flatMap_map, List.map_flatMap]
  exact List.flatMap_congr fun c _ => decorators_mapDecorators o.image c

theorem filter_debug_rewrite :
    (o.rewrite file p).events.filter (·.level = .debug) =
      p.decorators.filterMap (o.vocabulary.skip? file) ++
        if (o.rewrite file p).program.kind = p.kind then [] else [.promoted file] := by
  rw [events_rewrite, notes_walk, List.filter_append, List.map_flatMap, List.filter_flatMap,
    List.filterMap_eq_flatMap_toList]
  congr 1
  · exact List.flatMap_congr fun d _ => o.filter_debug_rewriteDecorator file d
  · split <;> rfl

end Program

/-! ## Programs with nothing to change -/

section Unchangeable

variable {o : Options} {p : Program} (h : ∀ d ∈ p.decorators, ¬ d.Changeable o.decorators)
include h

theorem value_walk_of_not_changeable : (o.walk p).value = p.body.items := by
  have hself : ∀ n ∈ p.body.items, (n.rewrite o).value = n := fun n hn =>
    value_rewrite_eq_self fun c hc d hd =>
      (rewriteDecorator_of_not_changeable
        (h d (List.mem_flatMap.mpr ⟨n, hn, List.mem_flatMap.mpr ⟨c, hc, hd⟩⟩))).1
  rw [walk, value_rewriteNodes, List.map_congr_left hself, List.map_id']

theorem notes_walk_of_not_changeable :
    (o.walk p).notes = p.decorators.flatMap o.vocabulary.skips := by
  rw [notes_walk]
  exact List.flatMap_congr fun d hd => (rewriteDecorator_of_not_changeable (h d hd)).2

theorem substitutions_of_not_changeable (file : String) :
    (o.rewrite file p).substitutions = [] := by
  rw [substitutions_rewrite, List.map_eq_nil_iff, Noted.hits, notes_walk_of_not_changeable h,
    List.filterMap_eq_nil_iff]
  intro n hn
  obtain ⟨d, -, hd⟩ := List.mem_flatMap.mp hn
  have hlevel := Vocabulary.level_of_mem_skips hd file
  cases n with
  | substituted r => cases hlevel
  | _ => rfl

theorem program_of_not_changeable (file : String) : (o.rewrite file p).program = p :=
  program_rewrite_eq_self (value_walk_of_not_changeable h) (substitutions_of_not_changeable h file)

theorem events_of_not_changeable (file : String) :
    (o.rewrite file p).events = p.decorators.filterMap (o.vocabulary.skip? file) := by
  have hkind : (o.rewrite file p).program.kind = p.kind :=
    congrArg Program.kind (program_of_not_changeable h file)
  rw [events_rewrite, if_pos hkind, List.append_nil, notes_walk_of_not_changeable h,
    List.map_flatMap, List.filterMap_eq_flatMap_toList]
  exact List.flatMap_congr fun d _ => (o.vocabulary.toList_skip? file d).symm

end Unchangeable

/-- The decorators of the outermost class declarations come out in line, each as it was or with
other properties in its metadata, and for the latter it has to be the call of a name that is looked
for with a single object literal that has a list of providers. What is reported for debugging is one
skip for each decorator that is called by such a name without metadata, in the order of the walk,
and behind them that a script became a module, if it did. A program without a decorator to change
comes out as it is: nothing is replaced or imported, and nothing but the skips is reported. -/
theorem rewrite_leaves_unsupported_decorators (o : Options) (file : String) (p : Program) :
    let out := o.rewrite file p
    List.Forall₂
      (fun d d' => d' = d ∨ ∃ (f : MetadataFrame) (ps ps' : List Node),
        d = f.fill ps ∧ d' = f.fill ps' ∧ d.Changeable o.decorators)
      p.decorators out.program.decorators ∧
    ∃ skip : Node → Option Event,
      (∀ d e, skip d = some e ↔ d.Skipped o.decorators file e) ∧
      out.events.filter (·.level = .debug) =
        p.decorators.filterMap skip ++
          (if out.program.kind = p.kind then [] else [.promoted file]) ∧
      ((∀ d ∈ p.decorators, ¬ d.Changeable o.decorators) →
        out.program = p ∧ out.substitutions = [] ∧
          out.events = p.decorators.filterMap skip) := by
  intro out
  refine ⟨?_, o.vocabulary.skip? file, fun d e => Vocabulary.skip?_eq_some,
    o.filter_debug_rewrite file p, fun h => ?_⟩
  · rw [o.decorators_rewrite, List.forall₂_map_right_iff, List.forall₂_same]
    exact fun d _ => o.image_eq_self_or_fill d
  · exact ⟨program_of_not_changeable h file, substitutions_of_not_changeable h file,
      events_of_not_changeable h file⟩

/-- Calls without an argument, with a variable, with a spread one, of another name, and with
metadata that has no list of providers under that key: the first two are reported. -/
theorem rewrite_leaves_five_decorators :
    let o : Options := { table := (Table.ofList [⟨"A", "B", "./b"⟩]).1 }
    let token : Node := .argument none (.ident (.made "A"))
    let call (arguments : List Node) : Node :=
      .decorator .nowhere (.call .nowhere 0 (.ident (.made "Component")) arguments .absent)
    let decorators : List Node :=
      [call [], call [.argument none (.ident (.made "metadata"))],
       call [.argument (some ⟨3, 6⟩) (.ident (.made "more"))], .providing "Injectable" [token],
       call [.argument none
         (.object .nowhere [.madeProperty "viewProviders" (.array .nowhere [token])])]]
    let p : Program := .script ⟨.nowhere,
      [.classDecl .declaration
        [("span", Span.nowhere.toJson), ("ctxt", .ofNat 0), ("declare", .bool false),
         ("isAbstract", .bool false)]
        decorators
        [("identifier", .ident (.made "Unit")), ("body", .list []), ("superClass", .absent),
         ("typeParams", .absent), ("superTypeParams", .absent), ("implements", .list [])]],
      none⟩
    let out := o.rewrite "a.ts" p
    (∀ d ∈ p.decorators, ¬ d.Changeable o.decorators) ∧ out.program = p ∧
      out.substitutions = [] ∧ out.events = [.argumentCount "a.ts" 0, .notObject "a.ts"] := by
  intro o token call decorators p out
  have hdecorators : p.decorators = decorators := by
    rw [Program.decorators, Program.body, List.flatMap_singleton, classes_of_class rfl,
      List.flatMap_singleton]
    rfl
  have hnone : ∀ d ∈ p.decorators, ¬ d.Changeable o.decorators := by
    rw [hdecorators]
    decide
  obtain ⟨-, skip, -, -, hsame⟩ := o.rewrite_leaves_unsupported_decorators "a.ts" p
  obtain ⟨hprogram, hsubstitutions, -⟩ := hsame hnone
  exact ⟨hnone, hprogram, hsubstitutions, by decide⟩

end Options

end Rebind
