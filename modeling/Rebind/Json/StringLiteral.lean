import Rebind.Json.Reader

/-!
# String literals

A string literal runs from quote to quote. A backslash brings in an escape, and
every other character down to the space stands for itself. An escape is a
letter, or `u` and the four hexadecimal digits of a 16-bit code unit; a
character beyond 16 bits takes two such escapes in a row, the halves of a
surrogate pair, and a half without its partner is refused.
-/

namespace Rebind.Json

/-- The character that a letter stands for behind a backslash. -/
def escaped? : Char → Option Char
  | '"' => some '"'
  | '\\' => some '\\'
  | '/' => some '/'
  | 'b' => some '\x08'
  | 'f' => some '\x0c'
  | 'n' => some '\n'
  | 'r' => some '\r'
  | 't' => some '\t'
  | _ => none

/-- The value of a hexadecimal digit of either case. -/
def hexDigit? (c : Char) : Option Nat :=
  if '0' ≤ c ∧ c ≤ '9' then some (c.toNat - '0'.toNat)
  else if 'a' ≤ c ∧ c ≤ 'f' then some (c.toNat - 'a'.toNat + 10)
  else if 'A' ≤ c ∧ c ≤ 'F' then some (c.toNat - 'A'.toNat + 10)
  else none

/-- The code unit that four hexadecimal digits at the front of a text spell. -/
def codeUnit? : List Char → Option Nat
  | a :: b :: c :: d :: _ => do
    let w ← hexDigit? a
    let x ← hexDigit? b
    let y ← hexDigit? c
    let z ← hexDigit? d
    return ((w * 16 + x) * 16 + y) * 16 + z
  | _ => none

/-- The number of bytes that characters take. -/
def byteLength (s : List Char) : Nat :=
  s.foldr (fun c n => c.utf8Size + n) 0

/-- Whether a code unit is the first half of a surrogate pair. -/
def isLeading (n : Nat) : Bool :=
  0xD800 ≤ n && n ≤ 0xDBFF

/-- Whether a code unit is the second half of a surrogate pair. -/
def isTrailing (n : Nat) : Bool :=
  0xDC00 ≤ n && n ≤ 0xDFFF

/-- The character that a surrogate pair stands for. -/
def ofPair (leading trailing : Nat) : Char :=
  Char.ofNat (0x10000 + (leading - 0xD800) * 0x400 + (trailing - 0xDC00))

namespace Reader

/-- Reads the four digits of a code unit. They take four bytes, and so many bytes are looked at
before the digits are judged: a text with fewer left is at its end. -/
def codeUnit : Reader Nat where
  run c :=
    match codeUnit? c.rest with
    | some n => .ok (n, ⟨c.offset + 4, c.rest.drop 4⟩)
    | none =>
        let left := byteLength (c.rest.take 4)
        if left < 4 then .error ⟨.endOfString, c.offset + left⟩
        else .error ⟨.brokenEscape, c.offset + 4⟩
  length_le := by
    intro c a c' h
    split at h
    · cases h
      simp only [List.length_drop]
      exact Nat.sub_le _ _
    · simp only at h
      split at h <;> cases h

/-- Reads the second half of a pair, with the backslash and the letter before it. -/
def trailingHalf : Reader Nat := do
  match ← peek with
  | none => fail .endOfString
  | some '\\' =>
      skip
      match ← peek with
      | none => fail .endOfString
      | some 'u' =>
          skip
          let n ← codeUnit
          if isTrailing n then pure n else fail .loneSurrogate
      | some _ => failNext .halfPair
  | some _ => failNext .halfPair

/-- Reads what follows a backslash. -/
def escapeSequence : Reader Char := do
  match ← peek with
  | none => fail .endOfString
  | some 'u' =>
      skip
      let n ← codeUnit
      if isTrailing n then fail .loneSurrogate
      else if isLeading n then return ofPair n (← trailingHalf)
      else return Char.ofNat n
  | some l =>
      match escaped? l with
      | some a =>
          skip
          return a
      | none => failNext .brokenEscape

/-- Reads characters up to the closing quote, and the quote itself. -/
def stringBody (c : Cursor) : Except Fault (List Char × Cursor) :=
  match hc : c.rest with
  | [] => .error ⟨.endOfString, c.offset⟩
  | a :: _ =>
      have shorter : c.advance.rest.length < c.rest.length :=
        c.length_advance_lt (by rw [hc]; exact List.cons_ne_nil _ _)
      if a = '"' then .ok ([], c.advance)
      else if a = '\\' then
        match h : escapeSequence.run c.advance with
        | .error e => .error e
        | .ok (b, c') =>
            have := escapeSequence.length_le h
            match stringBody c' with
            | .error e => .error e
            | .ok (s, c'') => .ok (b :: s, c'')
      else if a.toNat < 0x20 then .error ⟨.controlCharacter, c.offset + 1⟩
      else
        match stringBody c.advance with
        | .error e => .error e
        | .ok (s, c') => .ok (a :: s, c')
termination_by c.rest.length
decreasing_by all_goals omega

theorem length_le_of_stringBody {c : Cursor} {s : List Char} {c' : Cursor}
    (h : stringBody c = .ok (s, c')) : c'.rest.length ≤ c.rest.length := by
  fun_induction stringBody c generalizing s c' with
  | case1 | case3 | case4 | case6 | case7 => cases h
  | case2 c =>
      cases h
      exact c.length_advance_le
  | case5 c _ _ _ _ hesc _ _ hbody _ hlt _ ih =>
      cases h
      have := ih hbody
      omega
  | case8 c _ _ _ hlt _ _ _ _ _ hbody ih =>
      cases h
      have := ih hbody
      omega

/-- Reads a string literal whose opening quote is next. -/
def stringLiteral : Reader String := do
  skip
  let s ← (⟨stringBody, length_le_of_stringBody⟩ : Reader (List Char))
  return String.ofList s

end Reader

end Rebind.Json
