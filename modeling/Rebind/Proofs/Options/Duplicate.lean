import Mathlib.Data.Finset.Card
import Mathlib.Data.List.Induction
import Mathlib.Data.List.ReduceOption
import Rebind.Proofs.Options.Table

/-!
# Several definitions of one class

A table keeps the first definition of each class and reports all later ones. While it is filled
nothing is lost: a definition goes into the table or into the reports, and never into both, so the
table and the reports together are as many as the definitions.

Which of the two it is depends on the definitions before it. The table that they have filled finds
the first one of each class, so this is the one that a report names, however many other
definitions of the class were left out in between.
-/

namespace Rebind

/-- `r` is the definition of a class, and no other one stands before it. -/
def Replacement.IsFirstFor (r : Replacement) (name : String) (rs : List Replacement) : Prop :=
  r.original = name ∧
    ∃ before after, rs = before ++ r :: after ∧ ∀ r' ∈ before, r'.original ≠ name

theorem Replacement.IsFirstFor.mem {r : Replacement} {name : String} {rs : List Replacement}
    (h : r.IsFirstFor name rs) : r ∈ rs := by
  obtain ⟨-, before, after, hrs, -⟩ := h
  rw [hrs]
  exact List.mem_append_right before List.mem_cons_self

/-- `d` is a report on the definition at a place: there is one of the same class before it, and `d`
names the class, what the first definition of it puts in its place, and what this one would. -/
def Duplicate.TellsOf (d : Duplicate) (i : Nat) (rs : List Replacement) : Prop :=
  ∃ r kept : Replacement, rs[i]? = some r ∧ (∃ r' ∈ rs.take i, r'.original = r.original) ∧
    kept.IsFirstFor r.original rs ∧ d = ⟨r.original, kept.className, r.className⟩

namespace Table

theorem isFirstFor_iff {rs : List Replacement} {name : String} {r : Replacement} :
    r.IsFirstFor name rs ↔ rs.find? (·.original == name) = some r := by
  rw [List.find?_eq_some_iff_append, beq_iff_eq]
  simp [Replacement.IsFirstFor]

theorem find?_ofList_eq_some {rs : List Replacement} {name : String} {r : Replacement} :
    (ofList rs).1.find? name = some r ↔ r.IsFirstFor name rs := by
  rw [find?_ofList, isFirstFor_iff]

theorem find?_ofList_eq_none {rs : List Replacement} {name : String} :
    (ofList rs).1.find? name = none ↔ ∀ r ∈ rs, r.original ≠ name := by
  rw [find?_ofList, List.find?_eq_none]
  simp

/-- What stands behind the first definition of a class does not matter. -/
theorem isFirstFor_append {rs : List Replacement} {name : String}
    (h : ∃ r ∈ rs, r.original = name) (rs' : List Replacement) (kept : Replacement) :
    kept.IsFirstFor name (rs ++ rs') ↔ kept.IsFirstFor name rs := by
  obtain ⟨r, hr, hname⟩ := h
  have hsome : (rs.find? (·.original == name)).isSome = true :=
    List.find?_isSome.mpr ⟨r, hr, beq_iff_eq.mpr hname⟩
  obtain ⟨first, hfirst⟩ := Option.isSome_iff_exists.mp hsome
  rw [isFirstFor_iff, isFirstFor_iff, List.find?_append, hfirst, Option.some_or]

/-! ## How many there are -/

theorem mem_originals_iff {t : Table} {name : String} :
    name ∈ t.entries.map (·.original) ↔ t.find? name ≠ none := by
  rw [find?, ne_eq, List.find?_eq_none]
  simp

theorem toFinset_originals_ofList (rs : List Replacement) :
    ((ofList rs).1.entries.map (·.original)).toFinset = (rs.map (·.original)).toFinset := by
  ext name
  rw [List.mem_toFinset, List.mem_toFinset, mem_originals_iff, ne_eq, find?_ofList_eq_none]
  simp

theorem size_ofList (rs : List Replacement) :
    (ofList rs).1.size = (rs.map (·.original)).toFinset.card := by
  rw [← toFinset_originals_ofList, List.toFinset_card_of_nodup (ofList rs).1.distinct,
    List.length_map, size]

theorem isEmpty_ofList (rs : List Replacement) : (ofList rs).1.isEmpty = true ↔ rs = [] := by
  have hsize : (ofList rs).1.isEmpty = true ↔ (ofList rs).1.size = 0 := by
    rw [isEmpty, size, List.isEmpty_iff, List.length_eq_zero_iff]
  rw [hsize, size_ofList, Finset.card_eq_zero, List.toFinset_eq_empty_iff, List.map_eq_nil_iff]

/-! ## One more definition -/

theorem snd_insert (t : Table) (r : Replacement) :
    (t.insert r).2 = (t.find? r.original).map fun kept =>
      ⟨r.original, kept.className, r.className⟩ := by
  rw [insert]
  split
  · next kept hkept => rw [hkept, Option.map_some]
  · next hnone => simp only [hnone, Option.map_none]

theorem size_insert (t : Table) (r : Replacement) :
    (t.insert r).1.size + (t.insert r).2.toList.length = t.size + 1 := by
  rw [insert]
  split
  · rfl
  · exact List.length_append

theorem insertAll_cons (t : Table) (r : Replacement) (rs : List Replacement) :
    t.insertAll (r :: rs) = (((t.insert r).1.insertAll rs).1,
      (t.insert r).2.toList ++ ((t.insert r).1.insertAll rs).2) := rfl

theorem size_insertAll (t : Table) (rs : List Replacement) :
    (t.insertAll rs).1.size + (t.insertAll rs).2.length = t.size + rs.length := by
  induction rs generalizing t with
  | nil => rfl
  | cons r rs ih =>
      have hone := t.size_insert r
      have hrest := ih (t.insert r).1
      simp only [insertAll_cons, List.length_append, List.length_cons]
      omega

theorem snd_insertAll_append (t : Table) (rs rs' : List Replacement) :
    (t.insertAll (rs ++ rs')).2 = (t.insertAll rs).2 ++ ((t.insertAll rs).1.insertAll rs').2 := by
  induction rs generalizing t with
  | nil => rfl
  | cons r rs ih => simp only [List.cons_append, insertAll_cons, ih, List.append_assoc]

theorem snd_ofList_concat (rs : List Replacement) (r : Replacement) :
    (ofList (rs ++ [r])).2 = (ofList rs).2 ++ ((ofList rs).1.insert r).2.toList := by
  rw [ofList, snd_insertAll_append]
  exact congrArg _ (List.append_nil _)

/-! ## The reports -/

/-- A report depends on the definitions up to the one that it tells of. -/
theorem tellsOf_iff {d : Duplicate} {i : Nat} {rs : List Replacement} :
    d.TellsOf i rs ↔ ∃ r kept : Replacement, rs[i]? = some r ∧
      kept.IsFirstFor r.original (rs.take i) ∧ d = ⟨r.original, kept.className, r.className⟩ := by
  have hsplit := List.take_append_drop i rs
  constructor
  · intro h
    obtain ⟨r, kept, hr, hbefore, hkept, hd⟩ := h
    rw [← hsplit, isFirstFor_append hbefore] at hkept
    exact ⟨r, kept, hr, hkept, hd⟩
  · intro h
    obtain ⟨r, kept, hr, hkept, hd⟩ := h
    have hbefore : ∃ r' ∈ rs.take i, r'.original = r.original := ⟨kept, hkept.mem, hkept.1⟩
    refine ⟨r, kept, hr, hbefore, ?_, hd⟩
    rw [← hsplit, isFirstFor_append hbefore]
    exact hkept

theorem tellsOf_concat_of_lt {rs : List Replacement} {i : Nat} (hi : i < rs.length)
    (r : Replacement) (d : Duplicate) : d.TellsOf i (rs ++ [r]) ↔ d.TellsOf i rs := by
  rw [tellsOf_iff, tellsOf_iff, List.getElem?_append_left hi,
    List.take_append_of_le_length (Nat.le_of_lt hi)]

theorem tellsOf_length_concat (rs : List Replacement) (r : Replacement) (d : Duplicate) :
    d.TellsOf rs.length (rs ++ [r]) ↔ ((ofList rs).1.insert r).2 = some d := by
  rw [tellsOf_iff, List.getElem?_concat_length, List.take_left, snd_insert,
    Option.map_eq_some_iff]
  simp only [find?_ofList_eq_some, Option.some.injEq, exists_and_left, exists_eq_left']
  exact exists_congr fun kept => and_congr_right fun _ => eq_comm

/-- Each definition has a report of its own or none, and the reports come in the order of the
definitions. -/
theorem exists_reports (rs : List Replacement) :
    ∃ reports : List (Option Duplicate), reports.length = rs.length ∧
      (ofList rs).2 = reports.reduceOption ∧
      ∀ (i : Nat) (d : Duplicate), reports[i]? = some (some d) ↔ d.TellsOf i rs := by
  induction rs using List.reverseRecOn with
  | nil =>
      refine ⟨[], rfl, rfl, fun i d => ?_⟩
      simp [Duplicate.TellsOf]
  | append_singleton rs r ih =>
      obtain ⟨reports, hlength, hall, heach⟩ := ih
      refine ⟨reports ++ [((ofList rs).1.insert r).2], ?_, ?_, fun i d => ?_⟩
      · rw [List.length_append, List.length_append, hlength, List.length_singleton,
          List.length_singleton]
      · rw [snd_ofList_concat, hall, List.reduceOption_append, List.reduceOption_singleton]
      · rcases Nat.lt_trichotomy i rs.length with hlt | heq | hgt
        · rw [List.getElem?_append_left (hlength ▸ hlt), heach, tellsOf_concat_of_lt hlt]
        · rw [heq, tellsOf_length_concat, ← hlength, List.getElem?_concat_length,
            Option.some.injEq]
        · have hnone : (rs ++ [r])[i]? = none := by
            rw [List.getElem?_eq_none_iff, List.length_append, List.length_singleton]
            omega
          have hnone' : (reports ++ [((ofList rs).1.insert r).2])[i]? = none := by
            rw [List.getElem?_eq_none_iff, List.length_append, List.length_singleton]
            omega
          rw [hnone', Duplicate.TellsOf, hnone]
          simp

/-- The table of a list finds the first definition of each class and has one entry for each class.
Every other definition is reported once, in the order of the list, with the class of the first
definition and its own. A longer list is looked up in its front part first. -/
theorem ofList_keeps_first (rs : List Replacement) :
    let t := (ofList rs).1
    let duplicates := (ofList rs).2
    (∀ name r, t.find? name = some r ↔ r.IsFirstFor name rs) ∧
    (∀ name, t.find? name = none ↔ ∀ r ∈ rs, r.original ≠ name) ∧
    t.size = (rs.map (·.original)).toFinset.card ∧
    (t.isEmpty = true ↔ rs = []) ∧
    (∃ reports : List (Option Duplicate), reports.length = rs.length ∧
      duplicates = reports.reduceOption ∧
      ∀ (i : Nat) (d : Duplicate), reports[i]? = some (some d) ↔ d.TellsOf i rs) ∧
    t.size + duplicates.length = rs.length ∧
    ∀ rs' name, (ofList (rs ++ rs')).1.find? name =
      (t.find? name).or ((ofList rs').1.find? name) := by
  intro t duplicates
  refine ⟨fun _ _ => find?_ofList_eq_some, fun _ => find?_ofList_eq_none, size_ofList rs,
    isEmpty_ofList rs, exists_reports rs, ?_, fun rs' name => ?_⟩
  · have hsize := empty.size_insertAll rs
    have hempty : empty.size = 0 := rfl
    rw [hempty, Nat.zero_add] at hsize
    exact hsize
  · rw [find?_ofList_append, find?_ofList, find?_ofList]

end Table

end Rebind
