import Rebind.Options.Replacement

/-!
# Options

The options of a rewrite: which classes are replaced, which decorators carry the
metadata that is rewritten, and what the two keys of a provider are called.

The replacements are a table, which holds at most one for each class. It is
filled in the order of the definitions, and the first definition of a class is
kept: every later one is left out and reported, together with the one that was
kept.
-/

namespace Rebind

/-! ## Replacement tables -/

/-- Replacements with distinct originals, in the order in which they were defined. -/
structure Table where
  entries : List Replacement
  distinct : (entries.map (·.original)).Nodup

/-- A definition that was left out, since its class has one already. -/
structure Duplicate where
  original : String
  /-- The class of the definition that is in force. -/
  kept : String
  /-- The class of the definition that was left out. -/
  ignored : String
deriving DecidableEq, Repr

namespace Table

/-- The table without replacements. -/
def empty : Table := ⟨[], List.nodup_nil⟩

/-- The replacement of a class, if it has one. -/
def find? (t : Table) (name : String) : Option Replacement :=
  t.entries.find? (·.original == name)

/-- The number of replacements. -/
def size (t : Table) : Nat :=
  t.entries.length

/-- Whether there are no replacements. -/
def isEmpty (t : Table) : Bool :=
  t.entries.isEmpty

theorem not_mem_of_find?_eq_none {t : Table} {name : String} (h : t.find? name = none) :
    name ∉ t.entries.map (·.original) := by
  intro hmem
  obtain ⟨r, hr, rfl⟩ := List.mem_map.mp hmem
  have := List.find?_eq_none.mp h r hr
  simp at this

/-- Adds a definition at the end, or reports it if its class has one already. -/
def insert (t : Table) (r : Replacement) : Table × Option Duplicate :=
  match h : t.find? r.original with
  | some kept => (t, some ⟨r.original, kept.className, r.className⟩)
  | none =>
      (⟨t.entries ++ [r], by
        rw [List.map_append, List.nodup_append]
        refine ⟨t.distinct, by simp, ?_⟩
        intro a ha b hb hab
        rw [List.map_cons, List.map_nil, List.mem_singleton] at hb
        exact not_mem_of_find?_eq_none h (hb ▸ hab ▸ ha)⟩, none)

/-- Adds definitions one after the other, and reports those that are left out. -/
def insertAll (t : Table) : List Replacement → Table × List Duplicate
  | [] => (t, [])
  | r :: rs =>
      let (t', duplicate) := t.insert r
      let (t'', duplicates) := t'.insertAll rs
      (t'', duplicate.toList ++ duplicates)

/-- The table of a list of definitions, and the definitions that are left out. -/
def ofList (rs : List Replacement) : Table × List Duplicate :=
  empty.insertAll rs

end Table

/-! ## All options -/

/-- The options of a rewrite. -/
structure Options where
  table : Table := .empty
  /-- The names of the decorators whose metadata lists providers. -/
  decorators : List String := ["Component", "Directive"]
  /-- The key of a provider under which the bound token stands. -/
  bindKey : String := "provide"
  /-- The key of a provider under which the implementing class stands. -/
  implementKey : String := "useClass"
  /-- Whether an import that is needed several times is written once. -/
  dedupeImports : Bool := false

/-- Whether the metadata of a decorator is rewritten. -/
def Options.recognises (o : Options) (decorator : String) : Bool :=
  o.decorators.contains decorator

end Rebind
