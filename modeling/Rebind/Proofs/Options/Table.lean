import Rebind.Options.Basic

/-!
# What a table says

A table is filled one definition after the other, and looked into by the name of
a class. The first definition of a name is what it finds, so a look into the
table of a list is a look into the list.

Two tables that are looked into one after the other come to one. It has a class
for a name if one of the two has, and no other choice of the paths would make it
say anything else about classes: `Composes` speaks of the classes alone.
-/

namespace Rebind.Table

/-- The class that a table has for a class. -/
def className? (t : Table) (name : String) : Option String :=
  (t.find? name).map (·.className)

theorem find?_insert (t : Table) (r : Replacement) (name : String) :
    (t.insert r).1.find? name = (t.find? name).or ([r].find? (·.original == name)) := by
  rw [insert]
  split
  · next kept hkept =>
      cases hname : t.find? name with
      | some r' => rfl
      | none =>
          have hother : (r.original == name) = false := by
            rw [beq_eq_false_iff_ne]
            intro heq
            rw [heq, hname] at hkept
            cases hkept
          have hnone : [r].find? (·.original == name) = none :=
            List.find?_cons_of_neg (by simp [hother])
          rw [hnone]
          rfl
  · exact List.find?_append

theorem find?_insertAll (t : Table) (rs : List Replacement) (name : String) :
    (t.insertAll rs).1.find? name = (t.find? name).or (rs.find? (·.original == name)) := by
  induction rs generalizing t with
  | nil => exact (Option.or_none).symm
  | cons r rs ih =>
      have hcons : (r :: rs).find? (·.original == name) =
          ([r].find? (·.original == name)).or (rs.find? (·.original == name)) := by
        rw [← List.singleton_append, List.find?_append]
      rw [insertAll, ih, find?_insert, hcons, Option.or_assoc]

theorem find?_ofList (rs : List Replacement) (name : String) :
    (ofList rs).1.find? name = rs.find? (·.original == name) :=
  (find?_insertAll empty rs name).trans (Option.none_or)

/-! ## More definitions

Definitions that come later are looked at only for the names that the table has nothing for, and
those that it has something for leave it as it is. -/

theorem insertAll_append (t : Table) (rs rs' : List Replacement) :
    (t.insertAll (rs ++ rs')).1 = ((t.insertAll rs).1.insertAll rs').1 := by
  induction rs generalizing t with
  | nil => rfl
  | cons r rs ih => exact ih (t.insert r).1

theorem insert_of_find? {t : Table} {r kept : Replacement}
    (h : t.find? r.original = some kept) : (t.insert r).1 = t := by
  rw [insert]
  split
  · rfl
  · next hnone =>
      rw [h] at hnone
      cases hnone

theorem insertAll_of_find? {t : Table} {rs : List Replacement}
    (h : ∀ r ∈ rs, t.find? r.original ≠ none) : (t.insertAll rs).1 = t := by
  induction rs with
  | nil => rfl
  | cons r rs ih =>
      obtain ⟨kept, hkept⟩ := Option.ne_none_iff_exists'.mp (h r List.mem_cons_self)
      have hinsert := insert_of_find? hkept
      have hrest := ih fun r' hr' => h r' (List.mem_cons_of_mem r hr')
      calc (t.insertAll (r :: rs)).1
          = ((t.insert r).1.insertAll rs).1 := rfl
        _ = (t.insertAll rs).1 := by rw [hinsert]
        _ = t := hrest

theorem find?_ofList_append (rs rs' : List Replacement) (name : String) :
    (ofList (rs ++ rs')).1.find? name =
      (rs.find? (·.original == name)).or (rs'.find? (·.original == name)) := by
  rw [find?_ofList, List.find?_append]

theorem ofList_append_of_known {rs rs' : List Replacement}
    (h : ∀ r' ∈ rs', ∃ r ∈ rs, r.original = r'.original) :
    (ofList (rs ++ rs')).1 = (ofList rs).1 := by
  rw [ofList, insertAll_append, ← ofList]
  refine insertAll_of_find? fun r' hr' => ?_
  obtain ⟨r, hr, hsame⟩ := h r' hr'
  rw [find?_ofList, ne_eq, List.find?_eq_none]
  intro hnone
  exact hnone r hr (beq_iff_eq.mpr hsame)

/-! ## Two tables in a row -/

/-- What `t₁` has for a class, looked up in `t₂` again, is what `t` has for it. -/
def Composes (t₁ t₂ t : Table) : Prop :=
  ∀ name, t.className? name =
    match t₁.className? name with
    | some c => some ((t₂.className? c).getD c)
    | none => t₂.className? name

theorem Composes.className?_eq_none {t₁ t₂ t : Table} (h : t₁.Composes t₂ t) (name : String) :
    t.className? name = none ↔ t₁.className? name = none ∧ t₂.className? name = none := by
  rw [h name]
  cases t₁.className? name <;> simp

/-- A definition with the class and the path that a table has for its class. -/
def relay (t : Table) (r : Replacement) : Replacement :=
  match t.find? r.className with
  | some r' => ⟨r.original, r'.className, r'.modulePath⟩
  | none => r

/-- The definitions of the first table as the second one passes them on, and
behind them those of the second. -/
def andThen (t₁ t₂ : Table) : Table :=
  (ofList (t₁.entries.map t₂.relay ++ t₂.entries)).1

theorem original_relay (t : Table) (r : Replacement) : (t.relay r).original = r.original := by
  rw [relay]
  split <;> rfl

theorem className_relay (t : Table) (r : Replacement) :
    (t.relay r).className = (t.className? r.className).getD r.className := by
  rw [relay, className?]
  cases t.find? r.className <;> rfl

theorem find?_andThen (t₁ t₂ : Table) (name : String) :
    (t₁.andThen t₂).find? name = ((t₁.find? name).map t₂.relay).or (t₂.find? name) := by
  have hkey : ((fun r : Replacement => r.original == name) ∘ t₂.relay) =
      fun r => r.original == name := by
    funext r
    rw [Function.comp_apply, original_relay]
  rw [andThen, find?_ofList, List.find?_append, List.find?_map, hkey]
  rfl

theorem composes_andThen (t₁ t₂ : Table) : t₁.Composes t₂ (t₁.andThen t₂) := by
  intro name
  rw [className?, className?, find?_andThen]
  cases t₁.find? name with
  | none => rfl
  | some r => exact congrArg some (t₂.className_relay r)

end Rebind.Table
