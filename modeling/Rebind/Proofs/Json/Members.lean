import Rebind.Json.Record
import Rebind.Proofs.Json.Compact
import Rebind.Proofs.Json.Record

/-!
# Objects with any keys

Records are objects whose keys are known beforehand. Here is the reader for the
others. It is made of the parts that records are read with, so keys and strings
follow the same rules, but it gives the members as they stand, in their order,
and makes no choice among them.

Reading such an object is the inverse of writing it, as far as texts without
superfluous blanks and escapes go. So the members can be told from the text, and
two objects that are written in the same way are the same.
-/

namespace Rebind.Json

variable {α : Type}

namespace Reader

/-- Reads a member of an object, whatever its key is. -/
def member (value : Reader α) (ms : List (String × α)) : Reader (List (String × α)) := do
  match ← peek with
  | some '"' =>
      let key ← stringLiteral
      Record.colon
      return ms ++ [(key, ← value)]
  | _ => failNext .keyNotString

/-- Reads an object with any keys. -/
def object (value : Reader α) : Reader (List (String × α)) := do
  skipBlanks
  match ← peek with
  | none => fail .endOfValue
  | some '\x7b' =>
      skip
      let ms ← Bracket.object.items value.member []
      skip
      return ms
  | some _ => wrongType (.record "map")

end Reader

/-- A member with a value of one kind. -/
def IsMemberOf (Describes : Value → α → Prop) (m : String × Value) (p : String × α) : Prop :=
  p.1 = m.1 ∧ Describes m.2 p.2

/-- An object whose values are of one kind. -/
def Value.IsObjectOf (Describes : Value → α → Prop) (v : Value) (ps : List (String × α)) : Prop :=
  ∃ ms, v = .object ms ∧ List.Forall₂ (IsMemberOf Describes) ms ps

namespace Reader

variable {value : Reader α} {Describes : Value → α → Prop}

theorem readsItems_member (hvalue : value.ReadsValues Describes) :
    Bracket.ReadsItems value.member
      (fun s m s' => ∃ p, IsMemberOf Describes m p ∧ s' = s ++ [p]) Value.memberTokens where
  leads m := ⟨_, _, rfl, rfl⟩
  reads := by
    intro s t ht
    refine (reads_keyed (fun key u => (Record.Slots.reads_colon u).bind fun _ w _ =>
      (hvalue w).map) ht).congr fun s' t' => ?_
    refine ⟨fun h => ?_, fun h => ?_⟩
    · obtain ⟨key, u, hkey, _, w, hcolon, x, hs', v, hx, htakes⟩ := h
      exact ⟨(key, v), ⟨(key, x), ⟨rfl, hx⟩, hs'⟩, u, hkey, w, hcolon, htakes⟩
    · obtain ⟨⟨_, v⟩, ⟨⟨key, x⟩, ⟨rfl, hx⟩, hs'⟩, u, hkey, w, hcolon, htakes⟩ := h
      exact ⟨key, u, hkey, (), w, hcolon, x, hs', v, hx, htakes⟩

theorem readsValues_object (hvalue : value.ReadsValues Describes) :
    value.object.ReadsValues (Value.IsObjectOf Describes) := by
  intro t
  have hiff : ∀ ps t', (∃ v, Value.IsObjectOf Describes v ps ∧ TakesAll v.tokens t t') ↔
      ∃ u, t.dropWhile Cursor.isBlank = '\x7b' :: u ∧
        ∃ ms, List.Forall₂ (IsMemberOf Describes) ms ps ∧
          TakesAll (separate (ms.map Value.memberTokens) ++ [.closing .object]) u t' := by
    intro ps t'
    refine ⟨fun h => ?_, fun h => ?_⟩
    · obtain ⟨_, ⟨ms, rfl, hms⟩, htakes⟩ := h
      obtain ⟨u, hu, htakes⟩ := takesAll_object.mp htakes
      exact ⟨u, hu, ms, hms, htakes⟩
    · obtain ⟨u, hu, ms, hms, htakes⟩ := h
      exact ⟨_, ⟨ms, rfl, hms⟩, takesAll_object.mpr ⟨u, hu, htakes⟩⟩
  simp only [hiff]
  apply reads_skipBlanks_bind
  generalize t.dropWhile Cursor.isBlank = u
  apply reads_peek_bind
  split
  · next h => exact reads_fail (by simp [List.head?_eq_none_iff.mp h])
  · next h =>
      obtain ⟨u, rfl⟩ := List.head?_eq_some_iff.mp h
      apply reads_skip_bind
      refine (Bracket.reads_enclosed (readsItems_member hvalue) .object
        fun s' u => reads_pure fun _ _ => Iff.rfl).congr fun ps t' => ?_
      simp only [steps_append]
      simp
  · next a hne h =>
      obtain ⟨u, rfl⟩ := List.head?_eq_some_iff.mp h
      refine reads_wrongType fun ps t' hread => ?_
      obtain ⟨u', heq, -⟩ := hread
      exact hne (List.cons.inj heq).1

end Reader

/-! ## Objects of strings -/

/-- The object with these strings. -/
def Value.ofStrings (ps : List (String × String)) : Value :=
  .object (ps.map fun p => (p.1, .string p.2))

/-- Reads an object of strings, up to the end of the text. -/
def Reader.onlyStrings : Reader (List (String × String)) := do
  let ps ← Reader.string.object
  Reader.finish
  return ps

/-- Reads an object of strings with nothing else in the text. -/
def readStrings (text : String) : Except Fault (List (String × String)) :=
  match Reader.onlyStrings.run (.start text) with
  | .error f => .error f
  | .ok (ps, _) => .ok ps

theorem Value.isObjectOf_string {v : Value} {ps : List (String × String)} :
    v.IsObjectOf (fun w x => w = .string x) ps ↔ v = .ofStrings ps := by
  have hmember : (IsMemberOf fun w x => w = .string x) =
      fun m (p : String × String) => m = (p.1, .string p.2) := by
    funext m p
    simp [IsMemberOf, Prod.ext_iff, eq_comm]
  have hmembers : ∀ ms : List (String × Value),
      List.Forall₂ (IsMemberOf fun w x => w = .string x) ms ps ↔
        ms = ps.map fun p => (p.1, .string p.2) := by
    intro ms
    rw [hmember, ← List.forall₂_map_right_iff, List.forall₂_eq_eq_eq]
  simp only [IsObjectOf, hmembers, exists_eq_right, ofStrings]

theorem Value.legible_ofStrings (ps : List (String × String)) : (ofStrings ps).Legible :=
  legible_object (List.forall_mem_map.mpr fun p _ => legible_string p.2)

theorem Reader.reads_onlyStrings (t : List Char) :
    onlyStrings.Reads t fun ps t' => t' = [] ∧ ∃ u, TakesAll (Value.ofStrings ps).tokens t u ∧
      ∀ a ∈ u, Cursor.isBlank a = true := by
  refine ((readsValues_object readsValues_string t).bind fun ps u _ =>
    (reads_finish u).map (f := fun _ => ps)).congr fun ps t' => ?_
  simp only [Value.isObjectOf_string, exists_eq_left]
  refine ⟨fun h => ?_, fun h => ?_⟩
  · obtain ⟨ps', u, htakes, _, rfl, ht', hblank⟩ := h
    exact ⟨ht', u, htakes, hblank⟩
  · obtain ⟨ht', u, htakes, hblank⟩ := h
    exact ⟨ps, u, htakes, (), rfl, ht', hblank⟩

/-- A text is read as an object of strings if and only if it spells it. -/
theorem readStrings_eq_ok_iff {text : String} {ps : List (String × String)} :
    readStrings text = .ok ps ↔ (Value.ofStrings ps).Spells text := by
  have hreads := Reader.reads_onlyStrings text.toList 0 ps
  refine ⟨fun h => ?_, fun h => ?_⟩
  · unfold readStrings at h
    split at h
    · cases h
    · next ps' c hrun =>
        obtain rfl := Except.ok.inj h
        exact ((hreads c.rest).mp ⟨c.offset, hrun⟩).2
  · obtain ⟨m, hrun⟩ := (hreads []).mpr ⟨rfl, h⟩
    have hstart : Reader.onlyStrings.run (.start text) = .ok (ps, ⟨m, []⟩) := hrun
    simp only [readStrings, hstart]

theorem readStrings_render (ps : List (String × String)) :
    readStrings (Value.ofStrings ps).render = .ok ps :=
  readStrings_eq_ok_iff.mpr (Value.spells_render (Value.legible_ofStrings ps))

end Rebind.Json
