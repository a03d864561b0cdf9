import Rebind.Event
import Rebind.Proofs.Json.Members
import Rebind.Proofs.Options.Rejection
import Rebind.Proofs.Options.Table

/-!
# What is written is what is read

The record of a substitution is made of four strings that may hold anything at
all, and so are the definitions of options of three. Both are written in the
compact form, so both can be read again: the record as an object of strings, and
the definitions by the reader of options. Since it is the same reader of strings
that they end up at, what has been reported of a substitution can be put into
options as it stands.

Whether the options are then accepted is no matter of how they are written. It
is settled by the checks of the definitions alone.
-/

namespace Rebind

open Json

/-! ## Definitions -/

namespace Replacement

/-- The object of a definition. -/
def toJson (r : Replacement) : Value :=
  .object [("replace", .string r.original),
    ("with", .object [("className", .string r.className), ("import", .string r.modulePath)])]

theorem isDefinition_toJson (r : Replacement) : r.toJson.IsDefinition r :=
  ⟨_, _, ⟨rfl, by simp, by simp⟩, rfl, rfl, _, ⟨rfl, by simp, by simp⟩, rfl, rfl⟩

theorem legible_toJson (r : Replacement) : r.toJson.Legible := by
  refine Value.legible_object ?_
  simp only [List.forall_mem_cons, List.not_mem_nil, false_implies, implies_true, and_true]
  refine ⟨Value.legible_string _, Value.legible_object ?_⟩
  simp only [List.forall_mem_cons, List.not_mem_nil, false_implies, implies_true, and_true]
  exact ⟨Value.legible_string _, Value.legible_string _⟩

end Replacement

namespace Draft

/-- These definitions, and the usual settings. -/
def ofDefinitions (rs : List Replacement) : Draft :=
  { replacements := some rs : DraftSlots }.draft

/-- The object of these definitions. -/
def definitionsJson (rs : List Replacement) : Value :=
  .object [("replacements", .array (rs.map Replacement.toJson))]

theorem isDraft_definitionsJson (rs : List Replacement) :
    (definitionsJson rs).IsDraft (ofDefinitions rs) := by
  refine ⟨_, ⟨rfl, by simp, by simp⟩, ⟨_, rfl, ?_⟩, rfl, rfl, rfl, rfl⟩
  rw [List.forall₂_map_left_iff]
  exact List.forall₂_same.mpr fun r _ => r.isDefinition_toJson

theorem legible_definitionsJson (rs : List Replacement) : (definitionsJson rs).Legible := by
  refine Value.legible_object (List.forall_mem_singleton.mpr (Value.legible_array ?_))
  exact List.forall_mem_map.mpr fun r _ => r.legible_toJson

/-- The usual settings are no problem. -/
theorem problem?_ofDefinitions (rs : List Replacement) :
    (ofDefinitions rs).problem? = rs.findSome? Replacement.problem? := by
  have hdecorators :
      ["Component", "Directive"].findSome? Setting.decorators.problem? = none := by decide
  have hbindKey : Setting.bindKey.problem? "provide" = none := by decide
  have himplementKey : Setting.implementKey.problem? "useClass" = none := by decide
  simp only [problem?, ofDefinitions, DraftSlots.draft, Option.getD_none, Option.getD_some,
    hdecorators, hbindKey, himplementKey, Option.orElse_eq_orElse, Option.orElse_eq_or,
    Option.none_or]

end Draft

namespace Options

/-- The text of options that have these definitions. -/
def definitionsText (rs : List Replacement) : String :=
  (Draft.definitionsJson rs).render

example : definitionsText [⟨"A", "B", "./b\"\n"⟩] =
    "\x7b\"replacements\":[\x7b\"replace\":\"A\",\"with\":\x7b\"className\":\"B\"," ++
      "\"import\":\"./b\\\"\\n\"\x7d\x7d]\x7d" := by
  decide +kernel

/-- Definitions that are written are read, and then it is up to the checks. -/
theorem read_definitionsText (rs : List Replacement) :
    read (definitionsText rs) =
      (rs.findSome? Replacement.problem?).elim
        ⟨.ok { table := (Table.ofList rs).1 }, (Table.ofList rs).2⟩
        fun p => ⟨.error (.unsound p), []⟩ := by
  have hopens : (Draft.ofDefinitions rs).Opens (definitionsText rs) [] := by
    refine ⟨_, Draft.isDraft_definitionsJson rs, ?_⟩
    rw [definitionsText, Value.render, String.toList_ofList]
    exact Value.takesAll_compact (Draft.legible_definitionsJson rs) []
  obtain ⟨m, hrun⟩ := Draft.opens_iff.mp hopens
  have hfinish := Reader.run_finish_of_blank (c := ⟨m, []⟩) (List.forall_mem_nil _)
  simp only [read, hrun, Draft.problem?_ofDefinitions, hfinish]
  cases rs.findSome? Replacement.problem? <;> rfl

/-- A single definition is accepted if it passes the checks, and is then all that the table has. -/
theorem read_definitionsText_singleton (r : Replacement) :
    (∃ o, read (definitionsText [r]) = ⟨.ok o, []⟩ ∧
      ∀ name, o.table.find? name = if name = r.original then some r else none) ↔
      r.problem? = none := by
  have hsingle : [r].findSome? Replacement.problem? = r.problem? := by
    cases h : r.problem? <;> simp [h]
  rw [read_definitionsText, hsingle]
  cases r.problem? with
  | some p =>
      refine iff_of_false (fun hread => ?_) nofun
      obtain ⟨o, hread, -⟩ := hread
      injection hread with hresult
      cases hresult
  | none =>
      refine iff_of_true ⟨_, rfl, fun name => ?_⟩ rfl
      rw [Table.find?_ofList]
      by_cases hname : name = r.original
      · simp [hname]
      · simp [hname, Ne.symm hname]

end Options

/-! ## Records -/

namespace Substitution

/-- The four strings of a record, by their keys. -/
def strings (s : Substitution) : List (String × String) :=
  [("file", s.file), ("original", s.original), ("replacement", s.className),
    ("module_path", s.modulePath)]

theorem toJson_eq (s : Substitution) : s.toJson = .ofStrings s.strings := rfl

theorem readStrings_record (s : Substitution) : readStrings s.record = .ok s.strings := by
  rw [record, toJson_eq, readStrings_render]

theorem eq_of_record {s s' : Substitution} (h : s'.record = s.record) : s' = s := by
  have hstrings : s'.strings = s.strings := by
    have hread := s'.readStrings_record
    rw [h, readStrings_record] at hread
    exact (Except.ok.inj hread).symm
  obtain ⟨file, original, className, modulePath⟩ := s
  obtain ⟨file', original', className', modulePath'⟩ := s'
  simpa [strings] using hstrings

/-- The record that an event carries is read as an object of strings, and what is read are the four
strings of the substitution with their keys, in this order. There is no control character in it, and
no other substitution has the same record. A definition that is written like this is accepted in
options if and only if it passes the checks, and then it is what is found for its class. -/
theorem record_reads_back (s : Substitution) (r : Replacement) :
    ((Event.substituted s).level = .info ∧
      (Event.substituted s).fields = [("record", .string s.record)]) ∧
    (∀ c ∈ s.record.toList, 0x20 ≤ c.toNat) ∧
    readStrings s.record = .ok [("file", s.file), ("original", s.original),
      ("replacement", s.className), ("module_path", s.modulePath)] ∧
    (∀ s' : Substitution, s'.record = s.record → s' = s) ∧
    (r.problem? = none ↔ ∃ o, Options.read (Options.definitionsText [r]) = ⟨.ok o, []⟩ ∧
      ∀ name, o.table.find? name = if name = r.original then some r else none) :=
  ⟨⟨rfl, rfl⟩, Value.not_control_render (Value.legible_ofStrings s.strings),
    s.readStrings_record, fun _ => eq_of_record, (Options.read_definitionsText_singleton r).symm⟩

example : (Substitution.mk "a\\b\t" "\"\x1f" "\x7f\u2028𝄞" "").record =
    "\x7b\"file\":\"a\\\\b\\t\",\"original\":\"\\\"\\u001f\"," ++
      "\"replacement\":\"\x7f\u2028𝄞\",\"module_path\":\"\"\x7d" := by
  decide +kernel

end Substitution

end Rebind
