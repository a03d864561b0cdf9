import Rebind.Json.Scalar

/-!
# Lists, and what stands between brackets

Between brackets stand items with a comma between any two. The items are read
into a state, one after the other; what an item is, and what it does to the
state, is up to the caller. The closing bracket is left to the caller as well,
since a fault that is noticed at the end of a form is placed behind it.
-/

namespace Rebind.Json

/-- The two bracketed forms. -/
inductive Bracket where
  | list
  | object
deriving DecidableEq, Repr

namespace Bracket

variable {σ : Type}

/-- The closing bracket of a form. -/
def close : Bracket → Char
  | .list => ']'
  | .object => '\x7d'

/-- The text ends inside the form. -/
def unclosed : Bracket → Cause
  | .list => .endOfList
  | .object => .endOfObject

/-- Two items of the form have no comma between them. -/
def commaDue : Bracket → Cause
  | .list => .listCommaDue
  | .object => .objectCommaDue

/-- Moves to the first item. There is none if the closing bracket is next. -/
def first (b : Bracket) : Reader Bool := do
  Reader.skipBlanks
  match ← Reader.peek with
  | none => Reader.fail b.unclosed
  | some a => return a ≠ b.close

/-- Moves to the item behind a comma. The closing bracket may not stand there. -/
def behindComma (b : Bracket) : Reader Bool := do
  Reader.skipBlanks
  match ← Reader.peek with
  | none => Reader.fail .endOfValue
  | some a => if a = b.close then Reader.failNext .trailingComma else return true

/-- Moves over a comma to the item behind it. There is none if the closing bracket is next. -/
def next (b : Bracket) : Reader Bool := do
  Reader.skipBlanks
  match ← Reader.peek with
  | none => Reader.fail b.unclosed
  | some a =>
      if a = b.close then return false
      else if a = ',' then
        Reader.skip
        b.behindComma
      else Reader.failNext b.commaDue

/-- An item that is not the first has a comma before it. -/
theorem length_lt_of_next {b : Bracket} {c c' : Cursor} (h : b.next.run c = .ok (true, c')) :
    c'.rest.length < c.rest.length := by
  have hblanks := c.length_skipBlanks_le
  simp only [next, Reader.run_bind, Reader.run_skipBlanks, Reader.run_peek] at h
  cases hrest : c.skipBlanks.rest with
  | nil =>
      rw [hrest] at h
      cases h
  | cons a rest =>
      have hcomma : c.skipBlanks.advance.rest.length < c.skipBlanks.rest.length :=
        Cursor.length_advance_lt (by rw [hrest]; exact List.cons_ne_nil _ _)
      rw [hrest, List.head?_cons] at h
      simp only at h
      split at h
      · cases h
      · split at h
        · rw [Reader.run_bind, Reader.run_skip] at h
          have hbehind := b.behindComma.length_le h
          omega
        · cases h

/-- Reads the items that have a comma before them. -/
def others (b : Bracket) (item : σ → Reader σ) (s : σ) (c : Cursor) : Except Fault (σ × Cursor) :=
  match h : b.next.run c with
  | .error e => .error e
  | .ok (false, c') => .ok (s, c')
  | .ok (true, c') =>
      have := length_lt_of_next h
      match h' : (item s).run c' with
      | .error e => .error e
      | .ok (s', c'') =>
          have := (item s).length_le h'
          b.others item s' c''
termination_by c.rest.length
decreasing_by omega

theorem length_le_of_others {b : Bracket} {item : σ → Reader σ} {s s' : σ} {c c' : Cursor}
    (h : b.others item s c = .ok (s', c')) : c'.rest.length ≤ c.rest.length := by
  fun_induction others b item s c with
  | case1 | case3 => cases h
  | case2 s c c₁ hnext =>
      cases h
      exact b.next.length_le hnext
  | case4 s c c₁ hnext hlt s₁ c₂ hitem hle ih =>
      have := ih h
      omega

/-- Reads the items of a form up to its closing bracket. -/
def items (b : Bracket) (item : σ → Reader σ) (s : σ) : Reader σ := do
  if ← b.first then
    let s' ← item s
    (⟨b.others item s', length_le_of_others⟩ : Reader σ)
  else return s

/-- Stops behind the closing bracket if only blanks stand before it, and behind these otherwise. -/
def failPast {α : Type} (b : Bracket) (cause : Cause) : Reader α := do
  Reader.skipBlanks
  if (← Reader.peek) = some b.close then Reader.skip
  Reader.fail cause

end Bracket

/-- Reads a list. -/
def Reader.list {α : Type} (item : Reader α) : Reader (List α) := do
  skipBlanks
  match ← peek with
  | none => fail .endOfValue
  | some '[' =>
      skip
      let s ← Bracket.list.items (fun s => return s ++ [← item]) []
      skip
      return s
  | some _ => wrongType .list

end Rebind.Json
