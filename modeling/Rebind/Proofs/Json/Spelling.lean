import Mathlib.Data.List.DropRight
import Mathlib.Data.List.Forall2
import Rebind.Json.Bracket
import Rebind.Json.Value

/-!
# How a text spells a value

The grammar, told without a reader. A value has tokens, and a text spells the
value by spelling the tokens one after the other, with blanks before any of
them. A character of a string may stand for itself or be escaped; every other
token has one spelling.

A spelling is a relation between the text in front of something and the text
behind it. So the tokens of a list or an object take a text apart in the order
in which they are put together, and what follows a value need not be known.
-/

namespace Rebind.Json

/-! ## Characters of a string -/

/-- The letters that may stand behind a backslash, each with what it stands for. -/
def shortEscapes : List (Char × Char) :=
  [('"', '"'), ('\\', '\\'), ('/', '/'), ('b', '\x08'), ('f', '\x0c'), ('n', '\n'), ('r', '\r'),
   ('t', '\t')]

/-- A hexadecimal digit of either case, and its value. -/
def HexDigit (a : Char) (d : Nat) : Prop :=
  d < 16 ∧ (a = Nat.digitChar d ∨ a = (Nat.digitChar d).toUpper)

instance (a : Char) (d : Nat) : Decidable (HexDigit a d) :=
  inferInstanceAs (Decidable (d < 16 ∧ (a = Nat.digitChar d ∨ a = (Nat.digitChar d).toUpper)))

/-- The four digits of a code unit. -/
def SpellsUnit (n : Nat) (digits : List Char) : Prop :=
  List.Forall₂ HexDigit digits [n / 0x1000, n / 0x100 % 0x10, n / 0x10 % 0x10, n % 0x10]

/-- The spellings of one character inside a string. -/
inductive SpellsChar : Char → List Char → Prop
  | plain {c : Char} : c ≠ '"' → c ≠ '\\' → 0x20 ≤ c.toNat → SpellsChar c [c]
  | short {l c : Char} : (l, c) ∈ shortEscapes → SpellsChar c ['\\', l]
  | unit {c : Char} {digits : List Char} :
      SpellsUnit c.toNat digits → SpellsChar c ('\\' :: 'u' :: digits)
  /-- A character beyond 16 bits takes the two halves of a surrogate pair. -/
  | pair {c : Char} {leading trailing : List Char} : 0x10000 ≤ c.toNat →
      SpellsUnit (0xD800 + (c.toNat - 0x10000) / 0x400) leading →
      SpellsUnit (0xDC00 + (c.toNat - 0x10000) % 0x400) trailing →
      SpellsChar c ('\\' :: 'u' :: (leading ++ '\\' :: 'u' :: trailing))

/-! ## Numerals -/

/-- One digit or more. -/
def IsDigits (s : List Char) : Prop :=
  s ≠ [] ∧ ∀ a ∈ s, a.isDigit = true

/-- The fraction of a numeral. -/
inductive IsFraction : List Char → Prop
  | none : IsFraction []
  | some {digits : List Char} : IsDigits digits → IsFraction ('.' :: digits)

/-- The exponent of a numeral. -/
inductive IsExponent : List Char → Prop
  | none : IsExponent []
  | some {e : Char} {sign digits : List Char} : e ∈ ['e', 'E'] → sign ∈ [[], ['+'], ['-']] →
      IsDigits digits → IsExponent (e :: (sign ++ digits))

/-- Numerals. The whole part has no zero in front, unless it is zero. -/
inductive IsNumeral : List Char → Prop
  | mk {sign whole fraction exponent : List Char} : sign ∈ [[], ['-']] → IsDigits whole →
      (whole.head? = some '0' → whole = ['0']) → IsFraction fraction → IsExponent exponent →
      IsNumeral (sign ++ (whole ++ (fraction ++ exponent)))

/-! ## Tokens -/

/-- The opening bracket of a form. -/
def Bracket.open : Bracket → Char
  | .list => '['
  | .object => '\x7b'

/-- What a text consists of, apart from blanks. -/
inductive Token where
  | opening (b : Bracket)
  | closing (b : Bracket)
  | comma
  | colon
  | null
  | bool (b : Bool)
  | number (numeral : String)
  | string (s : String)

/-- The spellings of a token. -/
def Token.Spells : Token → List Char → Prop
  | .opening b, s => s = [b.open]
  | .closing b, s => s = [b.close]
  | .comma, s => s = [',']
  | .colon, s => s = [':']
  | .null, s => s = ['n', 'u', 'l', 'l']
  | .bool true, s => s = ['t', 'r', 'u', 'e']
  | .bool false, s => s = ['f', 'a', 'l', 's', 'e']
  | .number numeral, s => s = numeral.toList ∧ IsNumeral s
  | .string x, s =>
      ∃ pieces, List.Forall₂ SpellsChar x.toList pieces ∧ s = '"' :: (pieces.flatten ++ ['"'])

/-- Groups of tokens with a comma between any two. -/
def separate : List (List Token) → List Token
  | [] => []
  | ks :: kss => ks ++ kss.flatMap (.comma :: ·)

mutual

/-- The tokens of a value. -/
def Value.tokens : Value → List Token
  | .null => [.null]
  | .bool b => [.bool b]
  | .number numeral => [.number numeral]
  | .string s => [.string s]
  | .array items => .opening .list :: (separate (itemTokens items) ++ [.closing .list])
  | .object members => .opening .object :: (separate (memberTokens members) ++ [.closing .object])

/-- The tokens of each item of a list. -/
def itemTokens : List Value → List (List Token)
  | [] => []
  | v :: vs => v.tokens :: itemTokens vs

/-- The tokens of each member of an object. -/
def memberTokens : List (String × Value) → List (List Token)
  | [] => []
  | (key, v) :: ms => (.string key :: .colon :: v.tokens) :: memberTokens ms

end

/-- A token stands behind the blanks at the front of `t`, and `t'` behind the token. -/
def Takes (k : Token) (t t' : List Char) : Prop :=
  ∃ blanks s, (∀ a ∈ blanks, Cursor.isBlank a = true) ∧ k.Spells s ∧ t = blanks ++ (s ++ t')

/-- Tokens stand at the front of `t`, one after the other, and `t'` behind them. -/
def TakesAll : List Token → List Char → List Char → Prop
  | [], t, t' => t' = t
  | k :: ks, t, t' => ∃ u, Takes k t u ∧ TakesAll ks u t'

/-- A text spells a value if it is the tokens of the value, and blanks. -/
def Value.Spells (v : Value) (text : String) : Prop :=
  ∃ blanks, TakesAll v.tokens text.toList blanks ∧ ∀ a ∈ blanks, Cursor.isBlank a = true

/-! ## Where tokens begin -/

/-- Whether a token is a closing bracket. -/
def Token.closes : Token → Bool
  | .closing _ => true
  | _ => false

theorem IsNumeral.exists_cons {s : List Char} (h : IsNumeral s) :
    ∃ a s', s = a :: s' ∧ (a = '-' ∨ a.isDigit = true) := by
  obtain ⟨hsign, ⟨hne, hdigits⟩, -, -, -⟩ := h
  next sign whole fraction exponent =>
  simp only [List.mem_cons, List.not_mem_nil, or_false] at hsign
  obtain rfl | rfl := hsign
  · cases whole with
    | nil => exact absurd rfl hne
    | cons a whole => exact ⟨a, _, rfl, .inr (hdigits a (List.mem_cons_self ..))⟩
  · exact ⟨'-', _, rfl, .inl rfl⟩

/-- A token is not empty. It does not begin with a blank, nor with a closing bracket unless it is
one. -/
theorem Token.Spells.exists_cons {k : Token} {s : List Char} (h : k.Spells s) :
    ∃ a s', s = a :: s' ∧ Cursor.isBlank a = false ∧
      (k.closes = false → ∀ b : Bracket, a ≠ b.close) := by
  match k with
  | .opening b =>
      exact ⟨_, _, h, by cases b <;> decide, fun _ b' => by cases b <;> cases b' <;> decide⟩
  | .closing b => exact ⟨_, _, h, by cases b <;> decide, nofun⟩
  | .comma | .colon | .null | .bool true | .bool false =>
      exact ⟨_, _, h, by decide, fun _ b => by cases b <;> decide⟩
  | .number numeral =>
      obtain ⟨a, s', rfl, ha⟩ := h.2.exists_cons
      refine ⟨a, s', rfl, Bool.eq_false_iff.mpr fun hblank => ?_, fun _ b heq => ?_⟩
      · simp only [Cursor.isBlank, Bool.or_eq_true, beq_iff_eq] at hblank
        rcases hblank with ((rfl | rfl) | rfl) | rfl <;> revert ha <;> decide
      · subst heq
        cases b <;> revert ha <;> decide
  | .string x =>
      obtain ⟨pieces, -, rfl⟩ := h
      exact ⟨_, _, rfl, by decide, fun _ b => by cases b <;> decide⟩

/-- Tokens of which the first is no closing bracket. -/
def Leads (ks : List Token) : Prop :=
  ∃ k ks', ks = k :: ks' ∧ k.closes = false

theorem Value.leads_tokens (v : Value) : Leads v.tokens := by
  cases v <;> exact ⟨_, _, rfl, rfl⟩

/-! ## Taking tokens -/

theorem takes_iff {k : Token} {t t' : List Char} :
    Takes k t t' ↔ ∃ s, k.Spells s ∧ t.dropWhile Cursor.isBlank = s ++ t' := by
  constructor
  · rintro ⟨blanks, s, hblanks, hs, rfl⟩
    obtain ⟨a, s', rfl, ha, -⟩ := hs.exists_cons
    refine ⟨_, hs, ?_⟩
    rw [List.dropWhile_append_of_pos hblanks]
    exact List.dropWhile_cons_of_neg (by simp [ha])
  · rintro ⟨s, hs, hdrop⟩
    refine ⟨t.takeWhile Cursor.isBlank, s, fun a ha => List.mem_takeWhile_imp ha, hs, ?_⟩
    rw [← hdrop, List.takeWhile_append_dropWhile]

/-- A token with one spelling of one character. -/
theorem takes_symbol {k : Token} {c : Char} (h : ∀ s, k.Spells s ↔ s = [c]) {t t' : List Char} :
    Takes k t t' ↔ t.dropWhile Cursor.isBlank = c :: t' := by
  simp only [takes_iff, h, exists_eq_left, List.singleton_append]

theorem takes_opening {b : Bracket} {t t' : List Char} :
    Takes (.opening b) t t' ↔ t.dropWhile Cursor.isBlank = b.open :: t' :=
  takes_symbol fun _ => Iff.rfl

theorem takes_closing {b : Bracket} {t t' : List Char} :
    Takes (.closing b) t t' ↔ t.dropWhile Cursor.isBlank = b.close :: t' :=
  takes_symbol fun _ => Iff.rfl

theorem takes_comma {t t' : List Char} :
    Takes .comma t t' ↔ t.dropWhile Cursor.isBlank = ',' :: t' :=
  takes_symbol fun _ => Iff.rfl

theorem takes_colon {t t' : List Char} :
    Takes .colon t t' ↔ t.dropWhile Cursor.isBlank = ':' :: t' :=
  takes_symbol fun _ => Iff.rfl

theorem takes_dropWhile {k : Token} {t t' : List Char} :
    Takes k (t.dropWhile Cursor.isBlank) t' ↔ Takes k t t' := by
  simp only [takes_iff, List.dropWhile_idempotent]

theorem Takes.length_lt {k : Token} {t t' : List Char} (h : Takes k t t') :
    t'.length < t.length := by
  obtain ⟨blanks, s, -, hs, rfl⟩ := h
  obtain ⟨a, s', rfl, -, -⟩ := hs.exists_cons
  simp only [List.length_append, List.length_cons]
  omega

theorem TakesAll.length_le {ks : List Token} {t t' : List Char} (h : TakesAll ks t t') :
    t'.length ≤ t.length := by
  induction ks generalizing t with
  | nil => exact Nat.le_of_eq (congrArg List.length h)
  | cons k ks ih =>
      obtain ⟨u, hk, hks⟩ := h
      have := hk.length_lt
      have := ih hks
      omega

theorem takesAll_append {ks ks' : List Token} {t t' : List Char} :
    TakesAll (ks ++ ks') t t' ↔ ∃ u, TakesAll ks t u ∧ TakesAll ks' u t' := by
  induction ks generalizing t with
  | nil => simp [TakesAll]
  | cons k ks ih =>
      simp only [List.cons_append, TakesAll, ih]
      constructor
      · rintro ⟨u, hk, w, hks, hks'⟩
        exact ⟨w, ⟨u, hk, hks⟩, hks'⟩
      · rintro ⟨w, ⟨u, hk, hks⟩, hks'⟩
        exact ⟨u, hk, w, hks, hks'⟩

theorem takesAll_singleton {k : Token} {t t' : List Char} : TakesAll [k] t t' ↔ Takes k t t' := by
  simp [TakesAll]

/-- Blanks before the first token do not matter. -/
theorem takesAll_dropWhile {ks : List Token} (h : Leads ks) {t t' : List Char} :
    TakesAll ks (t.dropWhile Cursor.isBlank) t' ↔ TakesAll ks t t' := by
  obtain ⟨k, ks, rfl, -⟩ := h
  simp only [TakesAll, takes_dropWhile]

theorem TakesAll.head_ne_close {ks : List Token} (h : Leads ks) {t t' : List Char}
    (htakes : TakesAll ks t t') (b : Bracket) :
    ∃ a, (t.dropWhile Cursor.isBlank).head? = some a ∧ a ≠ b.close := by
  obtain ⟨k, ks, rfl, hk⟩ := h
  obtain ⟨u, htake, -⟩ := htakes
  obtain ⟨s, hs, heq⟩ := takes_iff.mp htake
  obtain ⟨a, s', rfl, -, hclose⟩ := hs.exists_cons
  exact ⟨a, by rw [heq]; rfl, hclose hk b⟩

/-! ## Tokens of items -/

theorem itemTokens_eq (vs : List Value) : itemTokens vs = vs.map Value.tokens := by
  induction vs with
  | nil => rfl
  | cons v vs ih => rw [itemTokens, ih, List.map_cons]

/-- The tokens of a member of an object. -/
def Value.memberTokens (m : String × Value) : List Token :=
  .string m.1 :: .colon :: m.2.tokens

theorem memberTokens_eq (ms : List (String × Value)) :
    memberTokens ms = ms.map Value.memberTokens := by
  induction ms with
  | nil => rfl
  | cons m ms ih => rw [memberTokens, ih, List.map_cons, Value.memberTokens]

theorem takesAll_array {vs : List Value} {t t' : List Char} :
    TakesAll (Value.array vs).tokens t t' ↔ ∃ u, t.dropWhile Cursor.isBlank = '[' :: u ∧
      TakesAll (separate (vs.map Value.tokens) ++ [.closing .list]) u t' := by
  rw [Value.tokens, itemTokens_eq]
  simp only [TakesAll, takes_opening, Bracket.open]

theorem takesAll_object {ms : List (String × Value)} {t t' : List Char} :
    TakesAll (Value.object ms).tokens t t' ↔ ∃ u, t.dropWhile Cursor.isBlank = '\x7b' :: u ∧
      TakesAll (separate (ms.map Value.memberTokens) ++ [.closing .object]) u t' := by
  rw [Value.tokens, memberTokens_eq]
  simp only [TakesAll, takes_opening, Bracket.open]

end Rebind.Json
