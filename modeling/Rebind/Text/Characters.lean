/-!
# Characters

The settings of a rewrite are texts of two kinds: names, which have to be plain
identifiers, and paths, which must not be blank. A property of characters that
takes more than a comparison is carried as the ascending list of the closed
ranges of code points that have it.
-/

namespace Rebind.Text

/-! ## Sets of characters as ranges

`InOrder` says that a list is in ascending order: each range holds something,
and a code point that is missing stands between any two. -/

/-- Closed ranges of code points, each given by its first and its last. -/
abbrev Ranges := List (Nat × Nat)

namespace Ranges

/-- Whether one of the ranges holds the character. -/
def covers (ranges : Ranges) (c : Char) : Bool :=
  ranges.any fun r => r.1 ≤ c.toNat && c.toNat ≤ r.2

/-- The number of code points in the ranges, if no two overlap. -/
def size (ranges : Ranges) : Nat :=
  ranges.foldr (fun r n => r.2 + 1 - r.1 + n) 0

/-- No range is empty, and they ascend with a gap between neighbours. -/
def InOrder (ranges : Ranges) : Prop :=
  (∀ r ∈ ranges, r.1 ≤ r.2) ∧ ∀ p ∈ ranges.zip ranges.tail, p.1.2 + 1 < p.2.1

instance (ranges : Ranges) : Decidable ranges.InOrder :=
  inferInstanceAs (Decidable (_ ∧ _))

end Ranges

/-! ## Blank characters

The property White_Space, 25 code points in ten ranges. A text is blank when it
holds nothing else; the empty text is blank. -/

/-- The blank characters, as closed ranges of code points. -/
def blankRanges : Ranges :=
  [(0x09, 0x0D), (0x20, 0x20), (0x85, 0x85), (0xA0, 0xA0), (0x1680, 0x1680), (0x2000, 0x200A),
   (0x2028, 0x2029), (0x202F, 0x202F), (0x205F, 0x205F), (0x3000, 0x3000)]

/-- Whether a character is white space. -/
def isBlankChar (c : Char) : Bool :=
  blankRanges.covers c

/-- A text is blank when all its characters are white space. -/
def IsBlank (s : String) : Prop :=
  ∀ c ∈ s.toList, isBlankChar c = true

instance (s : String) : Decidable (IsBlank s) :=
  s.toList.decidableBAll (isBlankChar · = true)

example : blankRanges.InOrder ∧ blankRanges.size = 25 := by decide

/-! ## Plain identifiers

A plain identifier starts with an ASCII letter, an underscore or a dollar sign,
and goes on with these and with digits. The whole text has to be of this form:
nothing may stand before or after, not even a line break. -/

/-- The characters that an identifier may start with. -/
def startsIdentifier (c : Char) : Bool :=
  c.isAlpha || c == '_' || c == '$'

/-- The characters that an identifier may go on with. -/
def continuesIdentifier (c : Char) : Bool :=
  startsIdentifier c || c.isDigit

/-- The characters of a plain identifier. -/
def SpellsIdentifier : List Char → Prop
  | [] => False
  | c :: cs => startsIdentifier c = true ∧ ∀ d ∈ cs, continuesIdentifier d = true

instance : DecidablePred SpellsIdentifier
  | [] => inferInstanceAs (Decidable False)
  | c :: cs =>
      -- the characters of the text are looked at, not all there are
      have := cs.decidableBAll (continuesIdentifier · = true)
      inferInstanceAs
        (Decidable (startsIdentifier c = true ∧ ∀ d ∈ cs, continuesIdentifier d = true))

/-- A text is a plain identifier when it is spelled like one from end to end. -/
def IsIdentifier (s : String) : Prop :=
  SpellsIdentifier s.toList

instance (s : String) : Decidable (IsIdentifier s) :=
  inferInstanceAs (Decidable (SpellsIdentifier s.toList))

end Rebind.Text
