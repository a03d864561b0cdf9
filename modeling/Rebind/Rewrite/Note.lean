import Rebind.Options.Basic

/-!
# What a rewrite takes note of

Rewriting a tree depends on the options alone. What else there is to say about
it is noted on the way, in the order of the walk: each replacement that was
used, and each decorator that could not be dealt with. Imports, messages and the
list of substitutions are made from the notes afterwards; it comes to the same as
making them on the way.
-/

namespace Rebind

/-- Something that a rewrite takes note of. -/
inductive Note where
  /-- A class was replaced. -/
  | substituted (r : Replacement)
  /-- A decorator has so many arguments, and not one. -/
  | argumentCount (count : Nat)
  /-- The only argument of a decorator is no object literal. -/
  | notObject
deriving DecidableEq, Repr

/-- A value with the notes that were taken while it was made. -/
structure Noted (α : Type) where
  value : α
  notes : List Note

namespace Noted

variable {α β : Type}

instance : Monad Noted where
  pure a := ⟨a, []⟩
  bind m f :=
    let r := f m.value
    ⟨r.value, m.notes ++ r.notes⟩

@[simp] theorem value_pure (a : α) : (pure a : Noted α).value = a := rfl

@[simp] theorem notes_pure (a : α) : (pure a : Noted α).notes = [] := rfl

@[simp] theorem value_bind (m : Noted α) (f : α → Noted β) :
    (m >>= f).value = (f m.value).value := rfl

@[simp] theorem notes_bind (m : Noted α) (f : α → Noted β) :
    (m >>= f).notes = m.notes ++ (f m.value).notes := rfl

/-- Takes one note. -/
def note (n : Note) : Noted Unit :=
  ⟨(), [n]⟩

@[simp] theorem notes_note (n : Note) : (note n).notes = [n] := rfl

/-- Makes a value from each element of a list, front to back. -/
def forEach (f : α → Noted β) (l : List α) : Noted (List β) :=
  let made := l.map f
  ⟨made.map (·.value), made.flatMap (·.notes)⟩

@[simp] theorem value_forEach (f : α → Noted β) (l : List α) :
    (forEach f l).value = l.map fun a => (f a).value := by
  simp [forEach, Function.comp_def]

@[simp] theorem notes_forEach (f : α → Noted β) (l : List α) :
    (forEach f l).notes = l.flatMap fun a => (f a).notes := by
  simp [forEach, List.flatMap_map]

theorem forEach_cons (f : α → Noted β) (a : α) (l : List α) :
    forEach f (a :: l) = do
      let b ← f a
      let bs ← forEach f l
      return b :: bs := by
  show Noted.mk _ _ = Noted.mk _ _
  simp [forEach]

end Noted

end Rebind
