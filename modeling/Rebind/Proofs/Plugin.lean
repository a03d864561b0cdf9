import Rebind.Plugin
import Rebind.Proofs.Options.Locality
import Rebind.Proofs.Options.Reader
import Rebind.Proofs.Rewrite.Binding
import Rebind.Proofs.Rewrite.Report

/-!
# What the plugin does with what it is given

The host may hand over any text for the options, or none, and any name for the file, or none. A
text that can be used decides the rewrite. All other texts decide nothing: whatever was read of one
before it was rejected is in the reports and nowhere else, and the program is rewritten as if there
had been no text.

The usual options have an empty table, so the rewrite that is left is known in full. It replaces
nothing, imports nothing and leaves a program of its kind; it only spells out the short forms.

The name of the file goes into the reports and comes back out of nothing else.
-/

namespace Rebind

/-- The file that an event is about. -/
def Event.file? : Event → Option String
  | .substituted s => some s.file
  | .argumentCount file _ | .notObject file | .promoted file => some file
  | .duplicate _ | .optionsIgnored _ => none

/-- The names that a rewrite goes by if no options say otherwise. -/
def Vocabulary.usual : Vocabulary :=
  ⟨["Component", "Directive"], "provide", "useClass"⟩

/-- An element of a list of providers, in the long form under the usual keys if it is in the short
form. -/
def Node.spelledOut : Node → Node
  | .argument none (.ident x) =>
      .argument none (.object .nowhere
        [.keyValue (.key .nowhere "provide") (.ident x),
         .keyValue (.key .nowhere "useClass") (.ident x)])
  | e => e

theorem Note.level_event (n : Note) (file : String) :
    (n.event file).level ≠ .warn ∧ (n.event file).file? = some file := by
  cases n <;> exact ⟨Level.noConfusion, rfl⟩

namespace Options

open Node

/-! ## Files and levels -/

theorem program_rewrite_congr (o : Options) (file file' : String) (p : Program) :
    (o.rewrite file p).program = (o.rewrite file' p).program := by
  have himports : ∀ f, (o.rewrite f p).substitutions.map Substitution.import =
      (o.walk p).hits.map Replacement.import := by
    intro f
    rw [substitutions_rewrite, List.map_map]
    rfl
  have hnil : ∀ f, (o.rewrite f p).substitutions = [] ↔ (o.walk p).hits = [] := by
    intro f
    rw [substitutions_rewrite, List.map_eq_nil_iff]
  refine Program.eq_of_kind_of_body ?_ ?_
  · rw [kind_rewrite, kind_rewrite]
    simp only [hnil]
  · rw [body_rewrite, body_rewrite, imports, imports, himports, himports]

/-- A rewrite warns of nothing, and names its file in all that it reports. -/
theorem level_of_mem_events_rewrite {o : Options} {file : String} {p : Program} {e : Event}
    (h : e ∈ (o.rewrite file p).events) : e.level ≠ .warn ∧ e.file? = some file := by
  rw [events_rewrite] at h
  rcases List.mem_append.mp h with hnote | hpromoted
  · obtain ⟨n, -, rfl⟩ := List.mem_map.mp hnote
    exact n.level_event file
  · split at hpromoted
    · cases hpromoted
    · rw [List.mem_singleton.mp hpromoted]
      exact ⟨Level.noConfusion, rfl⟩

/-! ## Options with an empty table -/

section Empty

variable {o : Options} (hempty : o.table.isEmpty = true) (file : String) (p : Program)
include hempty

theorem lookup_of_isEmpty (i : Ident) : o.lookup i = i :=
  lookup_of_none (Table.find?_of_isEmpty hempty i.name)

theorem substitutions_of_isEmpty : (o.rewrite file p).substitutions = [] :=
  substitutions_eq_nil.mpr fun x _ => Table.find?_of_isEmpty hempty x.name

theorem kind_of_isEmpty : (o.rewrite file p).program.kind = p.kind := by
  rw [kind_rewrite, if_pos (substitutions_of_isEmpty hempty file p)]

theorem body_of_isEmpty :
    (o.rewrite file p).program.body = { p.body with items := (o.walk p).value } := by
  rw [body_rewrite, substitutions_of_isEmpty hempty file p, imports_nil]
  rfl

/-- Without replacements the only thing to report is that a decorator was skipped. -/
theorem debug_of_isEmpty {e : Event} (h : e ∈ (o.rewrite file p).events) : e.level = .debug := by
  have hnone := o.substitutions_of_events_rewrite file p
  rw [substitutions_of_isEmpty hempty file p, List.filterMap_eq_nil_iff] at hnone
  have hwarn := (level_of_mem_events_rewrite h).1
  cases e with
  | substituted s => cases hnone _ h
  | duplicate | optionsIgnored => exact absurd rfl hwarn
  | argumentCount | notObject | promoted => rfl

end Empty

theorem rewriteProvider_usual (e : Node) :
    (({} : Options).rewriteProvider e).value = e.spelledOut := by
  have hlookup : ∀ i, ({} : Options).lookup i = i := lookup_of_isEmpty rfl
  rcases element_cases e with ⟨token, rfl⟩ | ⟨span, ps, rfl⟩ | ⟨hvalue, hcandidate⟩
  · rw [value_rewriteProvider_short, hlookup]
    rfl
  · rw [value_rewriteProvider_long, value_replaceClass_of_lookup hlookup, ite_self]
    rfl
  · rw [hvalue, Noted.value_pure, spelledOut.eq_def]
    split
    · cases hcandidate ({} : Options).vocabulary
    · rfl

end Options

namespace Plugin

open Json

/-! ## Names of files -/

/-- The name of a file with slashes only. -/
def slashed (file : String) : List Char :=
  file.toList.map fun c => if c = '\\' then '/' else c

theorem fileName_cases (file : String) :
    slashed file = "file:///".toList ++ (fileName file).toList ∨
    (¬ "file:///".toList <+: slashed file ∧
      slashed file = "file://".toList ++ (fileName file).toList) ∨
    (¬ "file://".toList <+: slashed file ∧ slashed file = (fileName file).toList) := by
  have hname : (fileName file).toList =
      stripFirst ["file:///".toList, "file://".toList] (slashed file) := String.toList_ofList
  have hdrop : ∀ mark : List Char, mark <+: slashed file →
      slashed file = mark ++ (slashed file).drop mark.length := by
    intro mark hmark
    obtain ⟨rest, hrest⟩ := hmark
    rw [← hrest, List.drop_left]
  rw [hname, stripFirst, List.find?_cons, List.find?_cons, List.find?_nil]
  by_cases hlong : "file:///".toList <+: slashed file
  · rw [List.isPrefixOf_iff_prefix.mpr hlong]
    exact Or.inl (hdrop _ hlong)
  · rw [Bool.eq_false_iff.mpr fun h => hlong (List.isPrefixOf_iff_prefix.mp h)]
    by_cases hshort : "file://".toList <+: slashed file
    · rw [List.isPrefixOf_iff_prefix.mpr hshort]
      exact Or.inr (Or.inl ⟨hlong, hdrop _ hshort⟩)
    · rw [Bool.eq_false_iff.mpr fun h => hshort (List.isPrefixOf_iff_prefix.mp h)]
      exact Or.inr (Or.inr ⟨hshort, rfl⟩)

/-! ## Texts of options -/

/-- A text that brings no options, and what is reported of it: there is none, or it is rejected. -/
inductive Unusable : Option String → List Event → Prop
  | absent : Unusable none []
  | rejected {text : String} {r : Rejection} (h : (Options.read text).result = .error r) :
      Unusable (some text) ((Options.read text).duplicates.map .duplicate ++ [.optionsIgnored r])

/-- What is said of a text that is rejected: the same words in front, then what is wrong with it, and
if it could not be read the line and the column of a place in it. -/
inductive Says (text : String) : Rejection → String → Prop
  | malformed {cause : Cause} {p : Position} {n : Nat} (h : p.Denotes text n) :
      Says text (.malformed cause p)
        ("invalid custom layer configuration: " ++ cause.message ++
          " at line " ++ toString p.line ++ " column " ++ toString p.column)
  | unsound {problem : Problem} :
      Says text (.unsound problem) ("invalid custom layer configuration: " ++ problem.message)

theorem says_message {text : String} {r : Rejection}
    (h : (Options.read text).result = .error r) : Says text r r.message := by
  cases r with
  | malformed cause p =>
      obtain ⟨f, hfaults, -, rfl⟩ := Options.faults_of_malformed h
      rw [Rejection.message_malformed]
      exact .malformed ((Position.denotes_ofOffset_iff hfaults.inside.1).mpr rfl)
  | unsound problem =>
      rw [Rejection.message_unsound]
      exact .unsound

/-- Only a text that is rejected is said to be ignored, and for the reason that it is rejected for. -/
theorem rejected_of_optionsIgnored {text : Option String} {reports : List Event} {r : Rejection}
    (h : Unusable text reports) (hr : .optionsIgnored r ∈ reports) :
    ∃ t, text = some t ∧ (Options.read t).result = .error r := by
  cases h with
  | absent => cases hr
  | rejected hread =>
      rcases List.mem_append.mp hr with hduplicate | hignored
      · obtain ⟨d, -, hd⟩ := List.mem_map.mp hduplicate
        cases hd
      · cases List.mem_singleton.mp hignored
        exact ⟨_, rfl, hread⟩

theorem options_of_ok {text : String} {o : Options} (h : (Options.read text).result = .ok o) :
    options (some text) = (o, (Options.read text).duplicates.map .duplicate) := by
  simp only [options, h]

theorem options_of_unusable {text : Option String} {reports : List Event}
    (h : Unusable text reports) : options text = ({}, reports) := by
  cases h with
  | absent => rfl
  | rejected h => simp only [options, h]

/-- What is reported of a text is a warning, and not about a file. -/
theorem level_of_mem_options {text : Option String} {e : Event} (h : e ∈ (options text).2) :
    e.level = .warn ∧ e.file? = none := by
  have hduplicate : ∀ ds : List Duplicate, ∀ e ∈ ds.map Event.duplicate,
      e.level = .warn ∧ e.file? = none := by
    intro ds e he
    obtain ⟨d, -, rfl⟩ := List.mem_map.mp he
    exact ⟨rfl, rfl⟩
  cases text with
  | none => cases h
  | some t =>
      cases hread : (Options.read t).result with
      | ok o =>
          rw [options_of_ok hread] at h
          exact hduplicate _ e h
      | error r =>
          rw [options_of_unusable (.rejected hread)] at h
          rcases List.mem_append.mp h with hmem | hmem
          · exact hduplicate _ e hmem
          · rw [List.mem_singleton.mp hmem]
            exact ⟨rfl, rfl⟩

theorem run_eq {text : Option String} {o : Options} {reports : List Event}
    (h : options text = (o, reports)) (file : Option String) (p : Program) :
    run text file p =
      let outcome := o.rewrite ((file.map fileName).getD "unknown") p
      ⟨outcome.program, outcome.substitutions, reports ++ outcome.events⟩ := by
  rw [run, h]
  rfl

/-- A text that is accepted decides the program, with any name for the file. Any other text is
reported, and the program is rewritten with the usual options: it stays of its kind, its items stay
where they are, nothing is replaced and nothing imported, and the short forms are spelled out. After
the reports on the text come only those on decorators that were skipped. The report on a text that
is ignored says why, and where in the text if it could not be read. The file that is named in
reports is that of the host, with slashes only and without one scheme in front. -/
theorem run_degrades (text file : Option String) (p : Program) :
    let name := (file.map fileName).getD "unknown"
    let out := run text file p
    (∀ t o, text = some t → (Options.read t).result = .ok o →
      (∀ f, out.program = (o.rewrite f p).program) ∧
      out.events = (Options.read t).duplicates.map .duplicate ++ (o.rewrite name p).events ∧
      ∀ e ∈ (o.rewrite name p).events, e.level ≠ .warn) ∧
    (∀ reports, Unusable text reports →
      (∀ f, out.program = (({} : Options).rewrite f p).program) ∧
      out.program.kind = p.kind ∧ out.substitutions = [] ∧
      (∃ items, out.program.body = { p.body with items } ∧ items.length = p.body.items.length ∧
        Redecorated ({} : Options).image (.list p.body.items) (.list items)) ∧
      Vocabulary.usual.elements out.program =
        (Vocabulary.usual.elements p).map Node.spelledOut ∧
      (∃ skips, out.events = reports ++ skips ∧ (∀ e ∈ reports, e.level = .warn) ∧
        ∀ e ∈ skips, e.level = .debug) ∧
      ∀ r, .optionsIgnored r ∈ reports →
        (Event.optionsIgnored r).message = "ignoring custom layer configuration" ∧
        (Event.optionsIgnored r).fields = [("err", .string r.message)] ∧
        ∃ t, text = some t ∧ (Options.read t).result = .error r ∧ Says t r r.message) ∧
    (∀ e ∈ out.events, ∀ f, e.file? = some f → f = name) ∧
    ∀ host, file = some host →
      slashed host = "file:///".toList ++ name.toList ∨
      (¬ "file:///".toList <+: slashed host ∧ slashed host = "file://".toList ++ name.toList) ∨
      (¬ "file://".toList <+: slashed host ∧ slashed host = name.toList) := by
  intro name out
  refine ⟨fun t o ht hok => ?_, fun reports hreports => ?_, fun e he f hf => ?_,
    fun host hhost => ?_⟩
  · subst ht
    have hout : out = _ := run_eq (options_of_ok hok) file p
    rw [hout]
    exact ⟨fun f => o.program_rewrite_congr name f p, rfl,
      fun e he => (Options.level_of_mem_events_rewrite he).1⟩
  · have hoptions := options_of_unusable hreports
    have hout : out = _ := run_eq hoptions file p
    have helements := ({} : Options).elements_rewrite name p
    simp only [Options.rewriteProvider_usual] at helements
    rw [hout]
    refine ⟨fun f => ({} : Options).program_rewrite_congr name f p,
      Options.kind_of_isEmpty rfl name p, Options.substitutions_of_isEmpty rfl name p,
      ⟨(({} : Options).walk p).value, Options.body_of_isEmpty rfl name p, ?_,
        ({} : Options).redecorated_walk p⟩, helements, ⟨_, rfl, fun e he => ?_, fun e he => ?_⟩,
      fun r hr => ?_⟩
    · rw [Options.walk, value_rewriteNodes, List.length_map]
    · have hreport : e ∈ (options text).2 := by
        rw [hoptions]
        exact he
      exact (level_of_mem_options hreport).1
    · exact Options.debug_of_isEmpty rfl name p he
    · obtain ⟨t, ht, hrejected⟩ := rejected_of_optionsIgnored hreports hr
      exact ⟨rfl, rfl, t, ht, hrejected, says_message hrejected⟩
  · have hout : out = _ := run_eq (Prod.eta (options text)).symm file p
    rw [hout] at he
    rcases List.mem_append.mp he with hreport | hwalk
    · rw [(level_of_mem_options hreport).2] at hf
      cases hf
    · rw [(Options.level_of_mem_events_rewrite hwalk).2, Option.some.injEq] at hf
      exact hf.symm
  · subst hhost
    exact fileName_cases host

/-- Two definitions of `A`, with something behind the options: these are rejected after the second
definition was reported, and `A` is not replaced. Options that only change a flag are accepted. -/
theorem run_degrades_behind_options :
    let good := "\x7b\"dedupeImports\":true\x7d"
    let bad := "\x7b\"replacements\":[[\"A\",[\"B\",\"b\"]],[\"A\",[\"C\",\"c\"]]]\x7dx"
    let short : Node := .argument none (.ident (.made "A"))
    let p : Program := .listing "Component" [short, .absent]
    let out := run (some bad) (some "file:///src\\a.ts") p
    (∃ o, (Options.read good).result = .ok o ∧
      (run (some good) none p).program = (o.rewrite "a.ts" p).program) ∧
    (∃ r skips, (Options.read bad).result = .error r ∧
      out.events = [.duplicate ⟨"A", "B", "C"⟩, .optionsIgnored r] ++ skips ∧
      (Event.optionsIgnored r).fields = [("err", .string r.message)]) ∧
    Vocabulary.usual.elements out.program = [short.spelledOut, .absent] ∧
    (∀ e ∈ out.events, ∀ f, e.file? = some f → f = "src/a.ts") ∧
    slashed "file:///src\\a.ts" = "file:///".toList ++ "src/a.ts".toList := by
  intro good bad short p out
  have hname : ((some "file:///src\\a.ts").map fileName).getD "unknown" = "src/a.ts" := by
    decide +kernel
  have hslashed : slashed "file:///src\\a.ts" = "file:///".toList ++ "src/a.ts".toList := by
    decide +kernel
  have haccepted : (Options.read good).result.toOption.map (·.dedupeImports) = some true := by
    decide +kernel
  have hrejected : (Options.read bad).result.isOk = false := by decide +kernel
  have hduplicates : (Options.read bad).duplicates = [⟨"A", "B", "C"⟩] := by decide +kernel
  have helements : Vocabulary.usual.elements p = [short, .absent] :=
    Vocabulary.elements_listing List.mem_cons_self _
  obtain ⟨o, hgood, -⟩ := Options.exists_of_settings haccepted
  obtain ⟨r, hbad⟩ : ∃ r, (Options.read bad).result = .error r := by
    cases hread : (Options.read bad).result with
    | ok o =>
        rw [hread] at hrejected
        cases hrejected
    | error r => exact ⟨r, rfl⟩
  obtain ⟨-, hdegraded, hfile, -⟩ := run_degrades (some bad) (some "file:///src\\a.ts") p
  obtain ⟨-, -, -, -, hspelled, ⟨skips, hevents, -⟩, hwarning⟩ := hdegraded _ (.rejected hbad)
  rw [hduplicates] at hevents
  rw [hname] at hfile
  refine ⟨⟨o, hgood, ((run_degrades (some good) none p).1 good o rfl hgood).1 "a.ts"⟩,
    ⟨r, skips, hbad, hevents, (hwarning r ?_).2.1⟩, ?_, hfile, hslashed⟩
  · exact List.mem_append_right _ (List.mem_singleton.mpr rfl)
  · exact hspelled.trans (congrArg (List.map Node.spelledOut) helements)

end Plugin

end Rebind
