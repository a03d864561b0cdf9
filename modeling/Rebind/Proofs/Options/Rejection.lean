import Rebind.Proofs.Options.Reader

/-!
# How far the reading of options comes

Options are read in stages, and a text that is rejected is rejected at one of them. First there has
to be a value for settings at the front of the text, whatever stands behind it. Then the settings
are checked one after the other, and the first check that fails is what is reported. Only when all
have passed is the table filled, so only then is anything reported of definitions that are left
out; and only after that does it matter what stands behind the value.

`Stage` names the four ways in which this can end, and `Reached` says which one it is in terms of
the text alone. The checks are put into one list here, in the order in which they are made, so that
the first one that fails is the first one in this list.
-/

namespace Rebind

open Json

/-! ## The list of checks -/

/-- A check of one of the settings: that it is a plain identifier, or that a path is not blank. -/
inductive Check where
  | identifier (setting : Setting) (value : String)
  | path (r : Replacement)

namespace Check

def Passes : Check → Prop
  | .identifier _ value => Text.IsIdentifier value
  | .path r => ∃ c ∈ r.modulePath.toList, Text.isBlankChar c = false

instance (c : Check) : Decidable c.Passes :=
  match c with
  | .identifier _ value => inferInstanceAs (Decidable (Text.IsIdentifier value))
  | .path r => inferInstanceAs (Decidable (∃ c ∈ r.modulePath.toList, Text.isBlankChar c = false))

/-- What is reported when the check fails. -/
def problem : Check → Problem
  | .identifier setting value => .notIdentifier setting value
  | .path r => .blankPath r.original

end Check

/-- The checks of a definition, in their order. -/
def Replacement.checks (r : Replacement) : List Check :=
  [.identifier .replace r.original, .identifier .className r.className, .path r]

namespace Draft

/-- The checks of settings, in their order. -/
def checks (d : Draft) : List Check :=
  d.decorators.map (.identifier .decorators) ++
    [.identifier .bindKey d.bindKey, .identifier .implementKey d.implementKey] ++
    d.replacements.flatMap Replacement.checks

end Draft

/-- The first of several checks that fails: all those before it pass. -/
def Check.FirstToFail (c : Check) (cs : List Check) : Prop :=
  ∃ before after, cs = before ++ c :: after ∧ (∀ b ∈ before, b.Passes) ∧ ¬ c.Passes

/-! ## The first check that fails -/

/-- The first of several checks that fails. -/
def Check.failing? (cs : List Check) : Option Check :=
  cs.find? fun c => !decide c.Passes

theorem Check.failing?_eq_some {cs : List Check} {c : Check} :
    failing? cs = some c ↔ c.FirstToFail cs := by
  rw [failing?, List.find?_eq_some_iff_append]
  simp only [Bool.not_not, decide_eq_true_eq, Bool.not_eq_true', decide_eq_false_iff_not]
  constructor
  · intro h
    obtain ⟨hc, before, after, hcs, hbefore⟩ := h
    exact ⟨before, after, hcs, hbefore, hc⟩
  · intro h
    obtain ⟨before, after, hcs, hbefore, hc⟩ := h
    exact ⟨hc, before, after, hcs, hbefore⟩

theorem Check.failing?_eq_none {cs : List Check} :
    failing? cs = none ↔ ∀ c ∈ cs, c.Passes := by
  rw [failing?, List.find?_eq_none]
  simp

theorem Check.failing?_append (cs cs' : List Check) :
    failing? (cs ++ cs') = (failing? cs).or (failing? cs') :=
  List.find?_append

theorem Check.map_failing?_flatMap {α : Type} (f : α → List Check) (l : List α) :
    (failing? (l.flatMap f)).map problem = l.findSome? fun a => (failing? (f a)).map problem := by
  rw [failing?, List.find?_flatMap, List.map_findSome?]
  rfl

theorem Check.failing?_singleton (c : Check) :
    failing? [c] = if c.Passes then none else some c := by
  by_cases h : c.Passes
  · rw [if_pos h, failing?_eq_none, List.forall_mem_singleton]
    exact h
  · rw [if_neg h, failing?, List.find?_cons_of_pos (by simpa using h)]

theorem Setting.problem?_eq (setting : Setting) (value : String) :
    setting.problem? value = (Check.failing? [.identifier setting value]).map Check.problem := by
  have hpasses : (Check.identifier setting value).Passes ↔ Text.IsIdentifier value := Iff.rfl
  rw [problem?, Check.failing?_singleton]
  simp only [hpasses]
  split <;> rfl

theorem Replacement.problem?_path (r : Replacement) :
    (if Text.IsBlank r.modulePath then some (Problem.blankPath r.original) else none) =
      (Check.failing? [.path r]).map Check.problem := by
  have hpasses : (Check.path r).Passes ↔ ¬ Text.IsBlank r.modulePath := by
    simp [Check.Passes, Text.IsBlank]
  rw [Check.failing?_singleton]
  simp only [hpasses, ite_not]
  split <;> rfl

theorem Replacement.problem?_eq (r : Replacement) :
    r.problem? = (Check.failing? r.checks).map Check.problem := by
  have hchecks : r.checks = [Check.identifier .replace r.original] ++
      ([Check.identifier .className r.className] ++ [Check.path r]) := rfl
  rw [problem?, Setting.problem?_eq, Setting.problem?_eq, problem?_path, hchecks,
    Check.failing?_append, Check.failing?_append, Option.map_or, Option.map_or]
  simp only [Option.orElse_eq_orElse, Option.orElse_eq_or]

/-- The problem of settings is that of the first check that fails. -/
theorem Draft.problem?_eq (d : Draft) :
    d.problem? = (Check.failing? d.checks).map Check.problem := by
  have hdecorators : d.decorators.findSome? Setting.decorators.problem? =
      (Check.failing? (d.decorators.map (.identifier .decorators))).map Check.problem := by
    rw [List.map_eq_flatMap, Check.map_failing?_flatMap, funext Setting.decorators.problem?_eq]
  have hreplacements : d.replacements.findSome? Replacement.problem? =
      (Check.failing? (d.replacements.flatMap Replacement.checks)).map Check.problem := by
    rw [Check.map_failing?_flatMap, funext Replacement.problem?_eq]
  have hchecks : d.checks = d.decorators.map (.identifier .decorators) ++
      ([Check.identifier .bindKey d.bindKey] ++ ([Check.identifier .implementKey d.implementKey] ++
        d.replacements.flatMap Replacement.checks)) := by
    rw [checks, List.append_assoc]
    rfl
  rw [problem?, hdecorators, hreplacements, Setting.problem?_eq, Setting.problem?_eq, hchecks]
  simp only [Check.failing?_append, Option.map_or, Option.orElse_eq_orElse, Option.orElse_eq_or]

/-! ## Stages -/

/-- A value for settings stands at the front of a text, and `rest` behind it. -/
def Draft.Opens (d : Draft) (text : String) (rest : List Char) : Prop :=
  ∃ v : Value, v.IsDraft d ∧ TakesAll v.tokens text.toList rest

/-- Where the reading of a text ends. -/
inductive Stage where
  /-- The text does not begin with a value for settings. -/
  | unread
  /-- It does, and of the checks of the settings this one is the first to fail. -/
  | unsound (d : Draft) (c : Check)
  /-- The settings are sound, and something stands behind the value. -/
  | unfinished (d : Draft)
  /-- Nothing stands behind the value but blanks. -/
  | accepted (d : Draft)

/-- The reading of a text ends at a stage. -/
def Stage.Reached (text : String) : Stage → Prop
  | .unread => ∀ (d : Draft) (rest : List Char), ¬ d.Opens text rest
  | .unsound d c => ∃ rest, d.Opens text rest ∧ c.FirstToFail d.checks
  | .unfinished d => ∃ rest, d.Opens text rest ∧ (∀ c ∈ d.checks, c.Passes) ∧
      ∃ a ∈ rest, Cursor.isBlank a = false
  | .accepted d => ∃ rest, d.Opens text rest ∧ (∀ c ∈ d.checks, c.Passes) ∧
      ∀ a ∈ rest, Cursor.isBlank a = true

/-- What comes of a text at a stage. -/
def Stage.Gives (text : String) (reading : Reading) : Stage → Prop
  | .unread => ∃ cause offset,
      reading = ⟨.error (.malformed cause (.ofOffset text offset)), []⟩
  | .unsound _ c => reading = ⟨.error (.unsound c.problem), []⟩
  | .unfinished d => ∃ offset, reading =
      ⟨.error (.malformed .trailingCharacters (.ofOffset text offset)),
        (Table.ofList d.replacements).2⟩
  | .accepted d => reading =
      ⟨.ok
        { table := (Table.ofList d.replacements).1
          decorators := d.decorators
          bindKey := d.bindKey
          implementKey := d.implementKey
          dedupeImports := d.dedupeImports },
        (Table.ofList d.replacements).2⟩

theorem Draft.opens_iff {d : Draft} {text : String} {rest : List Char} :
    d.Opens text rest ↔ ∃ m, draftRecord.reader.run (.start text) = .ok (d, ⟨m, rest⟩) :=
  (readsValues_draft text.toList 0 d rest).symm

/-- The text settles the settings and what stands behind them. -/
theorem Draft.Opens.unique {d d' : Draft} {text : String} {rest rest' : List Char}
    (h : d.Opens text rest) (h' : d'.Opens text rest') : d' = d ∧ rest' = rest := by
  obtain ⟨m, hrun⟩ := Draft.opens_iff.mp h
  obtain ⟨m', hrun'⟩ := Draft.opens_iff.mp h'
  rw [hrun] at hrun'
  injection hrun' with hpair
  injection hpair with hd hcursor
  injection hcursor with _ hrest
  exact ⟨hd.symm, hrest.symm⟩

/-- The stage at which the reading ends when settings have been read. -/
def Stage.behind (d : Draft) (rest : List Char) : Stage :=
  match Check.failing? d.checks with
  | some c => .unsound d c
  | none => if rest.all Cursor.isBlank then .accepted d else .unfinished d

theorem Stage.reached_of_unread {text : String}
    (h : ∀ (d : Draft) (rest : List Char), ¬ d.Opens text rest) (stage : Stage) :
    stage.Reached text ↔ stage = .unread := by
  cases stage with
  | unread => exact iff_of_true h rfl
  | unsound d _ | unfinished d | accepted d =>
      refine iff_of_false (fun hreached => ?_) Stage.noConfusion
      obtain ⟨rest, hopens, -⟩ := hreached
      exact h d rest hopens

theorem Stage.reached_behind {d : Draft} {text : String} {rest : List Char}
    (h : d.Opens text rest) : (Stage.behind d rest).Reached text := by
  rw [behind]
  cases hchecks : Check.failing? d.checks with
  | some c => exact ⟨rest, h, Check.failing?_eq_some.mp hchecks⟩
  | none =>
      have hpass := Check.failing?_eq_none.mp hchecks
      by_cases hblank : rest.all Cursor.isBlank = true
      · simp only [hblank, if_true]
        exact ⟨rest, h, hpass, List.all_eq_true.mp hblank⟩
      · simp only [hblank]
        exact ⟨rest, h, hpass, by simpa using hblank⟩

theorem Stage.reached_of_opens {d : Draft} {text : String} {rest : List Char}
    (h : d.Opens text rest) (stage : Stage) :
    stage.Reached text ↔ stage = Stage.behind d rest := by
  refine ⟨fun hreached => ?_, fun heq => heq ▸ Stage.reached_behind h⟩
  cases stage with
  | unread => exact absurd h (hreached d rest)
  | unsound d' c =>
      obtain ⟨rest', hopens, hfails⟩ := hreached
      obtain ⟨rfl, rfl⟩ := hopens.unique h
      simp only [behind, Check.failing?_eq_some.mpr hfails]
  | unfinished d' =>
      obtain ⟨rest', hopens, hpass, hrest⟩ := hreached
      obtain ⟨rfl, rfl⟩ := hopens.unique h
      have hblank : ¬ rest.all Cursor.isBlank = true := by simpa using hrest
      simp only [behind, Check.failing?_eq_none.mpr hpass, if_neg hblank]
  | accepted d' =>
      obtain ⟨rest', hopens, hpass, hrest⟩ := hreached
      obtain ⟨rfl, rfl⟩ := hopens.unique h
      have hblank : rest.all Cursor.isBlank = true := List.all_eq_true.mpr hrest
      simp only [behind, Check.failing?_eq_none.mpr hpass, if_pos hblank]

theorem Options.read_of_unread {text : String}
    (h : ∀ (d : Draft) (rest : List Char), ¬ d.Opens text rest) :
    Stage.unread.Gives text (Options.read text) := by
  cases hrun : draftRecord.reader.run (.start text) with
  | ok p => exact absurd (Draft.opens_iff.mpr ⟨p.2.offset, hrun⟩) (h p.1 p.2.rest)
  | error f => exact ⟨f.cause, f.offset, by simp only [Options.read, hrun, Rejection.ofFault]⟩

theorem Options.read_of_opens {d : Draft} {text : String} {rest : List Char}
    (h : d.Opens text rest) : (Stage.behind d rest).Gives text (Options.read text) := by
  obtain ⟨m, hrun⟩ := Draft.opens_iff.mp h
  rw [Stage.behind]
  cases hchecks : Check.failing? d.checks with
  | some c =>
      have hproblem : d.problem? = some c.problem := by rw [Draft.problem?_eq, hchecks]; rfl
      simp only [Options.read, hrun, hproblem, Stage.Gives]
  | none =>
      have hproblem : d.problem? = none := by rw [Draft.problem?_eq, hchecks]; rfl
      by_cases hblank : rest.all Cursor.isBlank = true
      · have hfinish := Reader.run_finish_of_blank (c := ⟨m, rest⟩) (List.all_eq_true.mp hblank)
        simp only [Options.read, hrun, hproblem, hfinish, hblank, if_true]
        rfl
      · have hfinish := Reader.run_finish_of_not_blank (c := ⟨m, rest⟩) (by simpa using hblank)
        simp only [Options.read, hrun, hproblem, hfinish, hblank]
        exact ⟨_, rfl⟩

/-- The reading of every text ends at one stage and at no other, and what comes of the text is what
this stage gives. A text without a value for settings at its front is malformed at some point. The
settings of the others are known, whatever stands behind the value: the first check that fails is
all that is reported of them, and if none does, the table is filled before it is seen whether the
text ends there. -/
theorem Options.read_ends_at_one_stage (text : String) :
    ∃ stage : Stage, (∀ stage' : Stage, stage'.Reached text ↔ stage' = stage) ∧
      stage.Gives text (Options.read text) := by
  by_cases hopens : ∃ (d : Draft) (rest : List Char), d.Opens text rest
  · obtain ⟨d, rest, h⟩ := hopens
    exact ⟨Stage.behind d rest, Stage.reached_of_opens h, Options.read_of_opens h⟩
  · have hunread : ∀ (d : Draft) (rest : List Char), ¬ d.Opens text rest :=
      fun d rest h => hopens ⟨d, rest, h⟩
    exact ⟨.unread, Stage.reached_of_unread hunread, Options.read_of_unread hunread⟩

/-- Of two definitions of `A` nothing is reported if a third one is unsound, nor is it what stands
behind them. -/
example :
    let reading := Options.read
      "\x7b\"replacements\":[[\"A\",[\"B\",\"b\"]],[\"A\",[\"C\",\"c\"]],[\"1\",[\"\",\"\"]]]\x7d]"
    reading.duplicates = [] ∧
      (match reading.result with
        | .error r => some r
        | .ok _ => none) = some (.unsound (.notIdentifier .replace "1")) := by
  decide +kernel

end Rebind
