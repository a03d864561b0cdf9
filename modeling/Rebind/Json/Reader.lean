import Rebind.Json.Fault

/-!
# Readers

A reader takes a prefix off the text that is left and gives a value, or stops
at a fault. It is handed the text as characters, and counts in bytes how far it
has come, since that is what faults are placed by.

That a reader never leaves more than it was given is part of the type. It is
what lets a reader be repeated: each round of a loop has to take something, and
the loop ends with the text.

The readers of this module only look at the next character or step over it. A
fault can be placed where the reader stands, or just behind the next character
when that character is the offence; a character of several bytes is blamed by
its first byte.
-/

namespace Rebind.Json

/-- What is left of a text, and how many bytes came before it. -/
structure Cursor where
  offset : Nat
  rest : List Char
deriving DecidableEq, Repr

namespace Cursor

/-- The cursor before a whole text. -/
def start (text : String) : Cursor :=
  ⟨0, text.toList⟩

/-- The cursor behind the next character. At the end of the text it stays. -/
def advance (c : Cursor) : Cursor :=
  match c.rest with
  | [] => c
  | a :: rest => ⟨c.offset + a.utf8Size, rest⟩

theorem length_advance_le (c : Cursor) : c.advance.rest.length ≤ c.rest.length := by
  unfold advance
  split
  · exact Nat.le_refl _
  · next h => rw [h]; exact Nat.le_succ _

theorem length_advance_lt {c : Cursor} (h : c.rest ≠ []) :
    c.advance.rest.length < c.rest.length := by
  unfold advance
  split
  · next hnil => exact absurd hnil h
  · next hcons => rw [hcons]; exact Nat.lt_succ_self _

/-- Blanks between the parts of a text: space, tab and the two line breaks. -/
def isBlank (a : Char) : Bool :=
  a == ' ' || a == '\t' || a == '\n' || a == '\r'

/-- The cursor behind the blanks that come next. Each is one byte. -/
def skipBlanks (c : Cursor) : Cursor :=
  ⟨c.offset + (c.rest.takeWhile isBlank).length, c.rest.dropWhile isBlank⟩

theorem length_skipBlanks_le (c : Cursor) : c.skipBlanks.rest.length ≤ c.rest.length :=
  (List.dropWhile_sublist isBlank).length_le

/-- The place that blames the next character: behind its first byte, or the end of the text. -/
def blame (c : Cursor) : Nat :=
  match c.rest with
  | [] => c.offset
  | _ :: _ => c.offset + 1

end Cursor

/-- A way to read values off the front of a text. -/
structure Reader (α : Type) where
  run : Cursor → Except Fault (α × Cursor)
  /-- Nothing is put back. -/
  length_le : ∀ {c a c'}, run c = .ok (a, c') → c'.rest.length ≤ c.rest.length

namespace Reader

variable {α β : Type}

instance : Monad Reader where
  pure a :=
    { run := fun c => .ok (a, c)
      length_le := by
        intro c a' c' h
        cases h
        exact Nat.le_refl _ }
  bind r f :=
    { run := fun c =>
        match r.run c with
        | .error e => .error e
        | .ok (a, c') => (f a).run c'
      length_le := by
        intro c b c'' h
        split at h
        · cases h
        · next a c' hr => exact Nat.le_trans ((f a).length_le h) (r.length_le hr) }

@[simp] theorem run_pure (a : α) (c : Cursor) : (pure a : Reader α).run c = .ok (a, c) := rfl

theorem run_bind (r : Reader α) (f : α → Reader β) (c : Cursor) :
    (r >>= f).run c =
      match r.run c with
      | .error e => .error e
      | .ok (a, c') => (f a).run c' := rfl

/-- Stops at the place where the reader stands. -/
def fail (cause : Cause) : Reader α where
  run c := .error ⟨cause, c.offset⟩
  length_le := nofun

/-- Stops at the next character. -/
def failNext (cause : Cause) : Reader α where
  run c := .error ⟨cause, c.blame⟩
  length_le := nofun

/-- The next character, which stays unread. -/
def peek : Reader (Option Char) where
  run c := .ok (c.rest.head?, c)
  length_le := by
    intro c a c' h
    cases h
    exact Nat.le_refl _

/-- Steps over the next character, if there is one. -/
def skip : Reader Unit where
  run c := .ok ((), c.advance)
  length_le := by
    intro c a c' h
    cases h
    exact c.length_advance_le

/-- Steps over blanks. -/
def skipBlanks : Reader Unit where
  run c := .ok ((), c.skipBlanks)
  length_le := by
    intro c a c' h
    cases h
    exact c.length_skipBlanks_le

@[simp] theorem run_fail (cause : Cause) (c : Cursor) :
    (fail cause : Reader α).run c = .error ⟨cause, c.offset⟩ := rfl

@[simp] theorem run_failNext (cause : Cause) (c : Cursor) :
    (failNext cause : Reader α).run c = .error ⟨cause, c.blame⟩ := rfl

@[simp] theorem run_peek (c : Cursor) : peek.run c = .ok (c.rest.head?, c) := rfl

@[simp] theorem run_skip (c : Cursor) : skip.run c = .ok ((), c.advance) := rfl

@[simp] theorem run_skipBlanks (c : Cursor) : skipBlanks.run c = .ok ((), c.skipBlanks) := rfl

/-- Steps over the letters of a word, of which `word` is what is still due. -/
def word : List Char → Reader Unit
  | [] => pure ()
  | a :: as => do
    match ← peek with
    | none => fail .endOfValue
    | some b =>
        if b = a then
          skip
          word as
        else failNext .brokenWord

/-- Accepts the end of the text, and blanks before it. -/
def finish : Reader Unit := do
  skipBlanks
  match ← peek with
  | none => pure ()
  | some _ => failNext .trailingCharacters

end Reader

end Rebind.Json
