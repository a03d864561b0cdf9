import Rebind.Options.Reader
import Rebind.Proofs.Json.Record

/-!
# Which texts are options

A text is options if it spells one value, blanks aside, and the value describes
sound settings. `IsDraft` says what the value has to look like, and `Sound` what
the settings have to be; neither mentions a reader.

The three records that options are read from have slots that behave like slots,
so what is read as a record is known. What is left is to say it by the names of
the fields instead of by slots.
-/

namespace Rebind

open Json

/-! ## What values describe -/

namespace Json.Value

def IsString (v : Value) (x : String) : Prop :=
  v = .string x

def IsBool (v : Value) (b : Bool) : Prop :=
  v = .bool b

/-- The class to use and the path to import it from. -/
def IsTarget (v : Value) (p : String × String) : Prop :=
  ∃ ms, v.Gives ["className", "import"] ms ∧
    ms.lookup "className" = some (.string p.1) ∧ ms.lookup "import" = some (.string p.2)

/-- The class to replace, and a target. -/
def IsDefinition (v : Value) (d : Replacement) : Prop :=
  ∃ ms w, v.Gives ["replace", "with"] ms ∧
    ms.lookup "replace" = some (.string d.original) ∧ ms.lookup "with" = some w ∧
    w.IsTarget (d.className, d.modulePath)

end Json.Value

/-- What the member of a name describes, or the usual if there is none. -/
def Given {α : Type} (ms : List (String × Value)) (name : String) (Describes : Value → α → Prop)
    (usual x : α) : Prop :=
  match ms.lookup name with
  | none => x = usual
  | some v => Describes v x

/-- Settings, each of which may be left out. -/
def Json.Value.IsDraft (v : Value) (d : Draft) : Prop :=
  ∃ ms, v.Gives ["replacements", "decorators", "bindKey", "implementKey", "dedupeImports"] ms ∧
    Given ms "replacements" (Value.IsListOf Value.IsDefinition) [] d.replacements ∧
    Given ms "decorators" (Value.IsListOf Value.IsString) ["Component", "Directive"]
      d.decorators ∧
    Given ms "bindKey" Value.IsString "provide" d.bindKey ∧
    Given ms "implementKey" Value.IsString "useClass" d.implementKey ∧
    Given ms "dedupeImports" Value.IsBool false d.dedupeImports

/-- Settings that are no problem: what becomes code is a plain identifier, and no path is blank. -/
structure Draft.Sound (d : Draft) : Prop where
  decorators : ∀ x ∈ d.decorators, Text.IsIdentifier x
  bindKey : Text.IsIdentifier d.bindKey
  implementKey : Text.IsIdentifier d.implementKey
  originals : ∀ r ∈ d.replacements, Text.IsIdentifier r.original
  classNames : ∀ r ∈ d.replacements, Text.IsIdentifier r.className
  modulePaths : ∀ r ∈ d.replacements, ∃ c ∈ r.modulePath.toList, Text.isBlankChar c = false

/-! ## Slots of the three records -/

inductive TargetField where
  | className
  | modulePath

def targetSlots : targetRecord.Slots TargetField fun _ => String where
  order := [.className, .modulePath]
  name
    | .className => "className"
    | .modulePath => "import"
  get
    | .className, s => s.className
    | .modulePath, s => s.modulePath
  set
    | .className, x, s => { s with className := some x }
    | .modulePath, x, s => { s with modulePath := some x }
  item _ := Reader.string
  Describes _ := Value.IsString
  fields_eq := rfl
  mem_order i := by cases i <;> simp
  nodup_names := by decide
  get_blank i := by cases i <;> rfl
  get_set i x s := by cases i <;> rfl
  get_set_of_ne {i j} h x s := by
    cases i <;> cases j <;> simp_all
  eq_of_get {s s'} h := by
    obtain ⟨a, b⟩ := s
    obtain ⟨a', b'⟩ := s'
    obtain rfl : a = a' := h .className
    obtain rfl : b = b' := h .modulePath
    rfl
  reads _ := Reader.readsValues_string

theorem readsValues_target : targetRecord.reader.ReadsValues Value.IsTarget := by
  have hcomplete : ∀ s p, targetRecord.complete s = .ok p ↔ s = ⟨some p.1, some p.2⟩ := by
    rintro ⟨_ | className, _ | modulePath⟩ p <;> simp [targetRecord, Prod.ext_iff]
  refine targetSlots.readsValues.congr fun v p => ?_
  simp only [Record.Slots.DescribesRecord, hcomplete]
  constructor
  · rintro ⟨ms, _, hgives, hholds, rfl⟩
    obtain ⟨_, hclass, rfl⟩ := targetSlots.changes_some.mp (hholds .className)
    obtain ⟨_, hpath, rfl⟩ := targetSlots.changes_some.mp (hholds .modulePath)
    exact ⟨ms, hgives, hclass, hpath⟩
  · rintro ⟨ms, hgives, hclass, hpath⟩
    refine ⟨ms, _, hgives, ?_, rfl⟩
    rintro (_ | _)
    · exact targetSlots.changes_some.mpr ⟨_, hclass, rfl⟩
    · exact targetSlots.changes_some.mpr ⟨_, hpath, rfl⟩

inductive DefinitionField where
  | original
  | target

/-- What the slot of a field holds. -/
abbrev DefinitionField.type : DefinitionField → Type
  | .original => String
  | .target => String × String

def definitionSlots : definitionRecord.Slots DefinitionField DefinitionField.type where
  order := [.original, .target]
  name
    | .original => "replace"
    | .target => "with"
  get
    | .original, s => s.original
    | .target, s => s.target
  set
    | .original, x, s => { s with original := some x }
    | .target, x, s => { s with target := some x }
  item
    | .original => Reader.string
    | .target => targetRecord.reader
  Describes
    | .original => Value.IsString
    | .target => Value.IsTarget
  fields_eq := rfl
  mem_order i := by cases i <;> simp
  nodup_names := by decide
  get_blank i := by cases i <;> rfl
  get_set i x s := by cases i <;> rfl
  get_set_of_ne {i j} h x s := by
    cases i <;> cases j <;> simp_all
  eq_of_get {s s'} h := by
    obtain ⟨a, b⟩ := s
    obtain ⟨a', b'⟩ := s'
    obtain rfl : a = a' := h .original
    obtain rfl : b = b' := h .target
    rfl
  reads
    | .original => Reader.readsValues_string
    | .target => readsValues_target

theorem readsValues_definition : definitionRecord.reader.ReadsValues Value.IsDefinition := by
  have hcomplete : ∀ s d, definitionRecord.complete s = .ok d ↔
      s = ⟨some d.original, some (d.className, d.modulePath)⟩ := by
    rintro ⟨_ | original, _ | ⟨className, modulePath⟩⟩ ⟨_, _, _⟩ <;> simp [definitionRecord]
  refine definitionSlots.readsValues.congr fun v d => ?_
  simp only [Record.Slots.DescribesRecord, hcomplete]
  constructor
  · rintro ⟨ms, _, hgives, hholds, rfl⟩
    obtain ⟨_, horiginal, rfl⟩ := definitionSlots.changes_some.mp (hholds .original)
    obtain ⟨w, htarget, hw⟩ := definitionSlots.changes_some.mp (hholds .target)
    exact ⟨ms, w, hgives, horiginal, htarget, hw⟩
  · rintro ⟨ms, w, hgives, horiginal, htarget, hw⟩
    refine ⟨ms, _, hgives, ?_, rfl⟩
    rintro (_ | _)
    · exact definitionSlots.changes_some.mpr ⟨_, horiginal, rfl⟩
    · exact definitionSlots.changes_some.mpr ⟨w, htarget, hw⟩

inductive DraftField where
  | replacements
  | decorators
  | bindKey
  | implementKey
  | dedupeImports

/-- What the slot of a field holds. -/
abbrev DraftField.type : DraftField → Type
  | .replacements => List Replacement
  | .decorators => List String
  | .bindKey => String
  | .implementKey => String
  | .dedupeImports => Bool

def draftSlots : draftRecord.Slots DraftField DraftField.type where
  order := [.replacements, .decorators, .bindKey, .implementKey, .dedupeImports]
  name
    | .replacements => "replacements"
    | .decorators => "decorators"
    | .bindKey => "bindKey"
    | .implementKey => "implementKey"
    | .dedupeImports => "dedupeImports"
  get
    | .replacements, s => s.replacements
    | .decorators, s => s.decorators
    | .bindKey, s => s.bindKey
    | .implementKey, s => s.implementKey
    | .dedupeImports, s => s.dedupeImports
  set
    | .replacements, x, s => { s with replacements := some x }
    | .decorators, x, s => { s with decorators := some x }
    | .bindKey, x, s => { s with bindKey := some x }
    | .implementKey, x, s => { s with implementKey := some x }
    | .dedupeImports, x, s => { s with dedupeImports := some x }
  item
    | .replacements => Reader.list definitionRecord.reader
    | .decorators => Reader.list Reader.string
    | .bindKey => Reader.string
    | .implementKey => Reader.string
    | .dedupeImports => Reader.boolean
  Describes
    | .replacements => Value.IsListOf Value.IsDefinition
    | .decorators => Value.IsListOf Value.IsString
    | .bindKey => Value.IsString
    | .implementKey => Value.IsString
    | .dedupeImports => Value.IsBool
  fields_eq := rfl
  mem_order i := by cases i <;> simp
  nodup_names := by decide
  get_blank i := by cases i <;> rfl
  get_set i x s := by cases i <;> rfl
  get_set_of_ne {i j} h x s := by
    cases i <;> cases j <;> simp_all
  eq_of_get {s s'} h := by
    obtain ⟨a, b, c, d, e⟩ := s
    obtain ⟨a', b', c', d', e'⟩ := s'
    obtain rfl : a = a' := h .replacements
    obtain rfl : b = b' := h .decorators
    obtain rfl : c = c' := h .bindKey
    obtain rfl : d = d' := h .implementKey
    obtain rfl : e = e' := h .dedupeImports
    rfl
  reads
    | .replacements => Reader.readsValues_list readsValues_definition
    | .decorators => Reader.readsValues_list Reader.readsValues_string
    | .bindKey => Reader.readsValues_string
    | .implementKey => Reader.readsValues_string
    | .dedupeImports => Reader.readsValues_boolean

/-- A slot that may stay empty holds what is given. -/
theorem given_iff {i : DraftField} {ms : List (String × Value)} {usual x : i.type} :
    Given ms (draftSlots.name i) (draftSlots.Describes i) usual x ↔
      ∃ o, draftSlots.Changes i (ms.lookup (draftSlots.name i)) none o ∧ o.getD usual = x := by
  unfold Given
  cases ms.lookup (draftSlots.name i) with
  | none => simp [Record.Slots.Changes, eq_comm]
  | some v => simp [Record.Slots.Changes]

theorem readsValues_draft : draftRecord.reader.ReadsValues Value.IsDraft := by
  have hcomplete : ∀ s d, draftRecord.complete s = .ok d ↔ s.draft = d := by
    intro s d
    simp [draftRecord]
  refine draftSlots.readsValues.congr fun v d => ?_
  simp only [Record.Slots.DescribesRecord, hcomplete]
  constructor
  · rintro ⟨ms, s, hgives, hholds, rfl⟩
    exact ⟨ms, hgives, given_iff.mpr ⟨_, hholds .replacements, rfl⟩,
      given_iff.mpr ⟨_, hholds .decorators, rfl⟩, given_iff.mpr ⟨_, hholds .bindKey, rfl⟩,
      given_iff.mpr ⟨_, hholds .implementKey, rfl⟩, given_iff.mpr ⟨_, hholds .dedupeImports, rfl⟩⟩
  · rintro ⟨ms, hgives, hreplacements, hdecorators, hbindKey, himplementKey, hdedupeImports⟩
    obtain ⟨a, ha, ha'⟩ := (given_iff (i := .replacements)).mp hreplacements
    obtain ⟨b, hb, hb'⟩ := (given_iff (i := .decorators)).mp hdecorators
    obtain ⟨c, hc, hc'⟩ := (given_iff (i := .bindKey)).mp hbindKey
    obtain ⟨e, he, he'⟩ := (given_iff (i := .implementKey)).mp himplementKey
    obtain ⟨f, hf, hf'⟩ := (given_iff (i := .dedupeImports)).mp hdedupeImports
    refine ⟨ms, ⟨a, b, c, e, f⟩, hgives, ?_, ?_⟩
    · rintro (_ | _ | _ | _ | _)
      exacts [ha, hb, hc, he, hf]
    · obtain ⟨_, _, _, _, _⟩ := d
      exact Draft.mk.injEq .. |>.mpr ⟨ha', hb', hc', he', hf'⟩

/-! ## Sound settings -/

theorem Setting.problem?_eq_none {setting : Setting} {x : String} :
    setting.problem? x = none ↔ Text.IsIdentifier x := by
  simp [problem?]

theorem Replacement.problem?_eq_none {d : Replacement} :
    d.problem? = none ↔ Text.IsIdentifier d.original ∧ Text.IsIdentifier d.className ∧
      ∃ c ∈ d.modulePath.toList, Text.isBlankChar c = false := by
  have hpath : (if Text.IsBlank d.modulePath then some (Problem.blankPath d.original) else none) =
      none ↔ ∃ c ∈ d.modulePath.toList, Text.isBlankChar c = false := by
    rw [ite_eq_right_iff]
    simp [Text.IsBlank]
  simp [problem?, Setting.problem?_eq_none, hpath]

theorem Draft.problem?_eq_none {d : Draft} : d.problem? = none ↔ d.Sound := by
  have hproblem : d.problem? = none ↔ (∀ x ∈ d.decorators, Text.IsIdentifier x) ∧
      Text.IsIdentifier d.bindKey ∧ Text.IsIdentifier d.implementKey ∧
      ∀ r ∈ d.replacements, Text.IsIdentifier r.original ∧ Text.IsIdentifier r.className ∧
        ∃ c ∈ r.modulePath.toList, Text.isBlankChar c = false := by
    simp [problem?, Setting.problem?_eq_none, Replacement.problem?_eq_none]
  rw [hproblem]
  constructor
  · rintro ⟨hdecorators, hbindKey, himplementKey, hreplacements⟩
    exact ⟨hdecorators, hbindKey, himplementKey, fun r hr => (hreplacements r hr).1,
      fun r hr => (hreplacements r hr).2.1, fun r hr => (hreplacements r hr).2.2⟩
  · intro h
    exact ⟨h.decorators, h.bindKey, h.implementKey, fun r hr =>
      ⟨h.originals r hr, h.classNames r hr, h.modulePaths r hr⟩⟩

/-! ## Texts -/

theorem Options.read_result_eq_ok {text : String} {o : Options} :
    (Options.read text).result = .ok o ↔ ∃ d c, draftRecord.reader.run (.start text) = .ok (d, c) ∧
      d.problem? = none ∧ (∃ c', Reader.finish.run c = .ok ((), c')) ∧ o = d.options.1 := by
  unfold Options.read
  cases draftRecord.reader.run (.start text) with
  | error f => simp
  | ok p =>
      obtain ⟨d, c⟩ := p
      cases hproblem : d.problem? with
      | some problem => simp [hproblem]
      | none =>
          cases hfinish : Reader.finish.run c with
          | error f => simp [hfinish, hproblem]
          | ok q =>
              obtain ⟨⟨⟩, c'⟩ := q
              simp [hfinish, hproblem, eq_comm]

/-- Options of which some settings were evaluated were read. -/
theorem Options.exists_of_settings {α : Type} {text : String} {settings : Options → α} {x : α}
    (h : (Options.read text).result.toOption.map settings = some x) :
    ∃ o, (Options.read text).result = .ok o ∧ settings o = x := by
  cases hread : (Options.read text).result with
  | error r =>
      rw [hread] at h
      cases h
  | ok o =>
      rw [hread] at h
      exact ⟨o, rfl, Option.some.inj h⟩

/-- A text is read as options if and only if it spells, blanks aside, one value that describes
sound settings. Of definitions with the same class the table has the first. -/
theorem Options.read_eq_ok_iff (text : String) (o : Options) :
    (Options.read text).result = .ok o ↔
      ∃ (v : Value) (d : Draft), v.Spells text ∧ v.IsDraft d ∧ d.Sound ∧
        o = { table := (Table.ofList d.replacements).1
              decorators := d.decorators
              bindKey := d.bindKey
              implementKey := d.implementKey
              dedupeImports := d.dedupeImports } := by
  rw [Options.read_result_eq_ok]
  constructor
  · rintro ⟨d, ⟨m, rest⟩, hread, hproblem, ⟨⟨m', rest'⟩, hfinish⟩, ho⟩
    obtain ⟨v, hdraft, htakes⟩ := (readsValues_draft text.toList 0 d rest).mp ⟨m, hread⟩
    have hblank := ((Reader.reads_finish rest m () rest').mp ⟨m', hfinish⟩).2
    exact ⟨v, d, ⟨rest, htakes, hblank⟩, hdraft, Draft.problem?_eq_none.mp hproblem, ho⟩
  · rintro ⟨v, d, ⟨rest, htakes, hblank⟩, hdraft, hsound, ho⟩
    obtain ⟨m, hread⟩ := (readsValues_draft text.toList 0 d rest).mpr ⟨v, hdraft, htakes⟩
    obtain ⟨m', hfinish⟩ := (Reader.reads_finish rest m () []).mpr ⟨rfl, hblank⟩
    exact ⟨d, _, hread, Draft.problem?_eq_none.mpr hsound, ⟨_, hfinish⟩, ho⟩

end Rebind
