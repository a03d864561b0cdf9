import Rebind.Json.StringLiteral

/-!
# Scalars

Strings, truth values and numerals: each is read where it is wanted, and
reported where something else is.
-/

namespace Rebind.Json

/-! ## Numerals

A numeral is a sign, whole digits without a leading zero, and perhaps a
fraction and an exponent. Its digits are gathered into a significand of 64
bits. Digits that do not fit any more are not gathered: those of the whole part
are counted into the exponent, those of the fraction are dropped.

A numeral without fraction and exponent whose value fits 64 bits is a whole
number, signed or unsigned as it is written, and zero with a sign is a float.
Every other numeral is a float: the significand is rounded to a float, and
multiplied or divided by a power of ten. -/

/-- `10 ^ n` as a float. -/
def powerOfTen (n : Nat) : Float :=
  Float.ofScientific 1 false n

/-- The float `x * 10 ^ e`, or `none` if it is too large. No power of ten beyond `10 ^ 308` is a
float, so a smaller exponent takes several divisions. -/
def shiftDecimal (x : Float) (e : Int) : Option Float :=
  if 308 < e then
    if x == 0 then some x else none
  else if 0 ≤ e then
    let y := x * powerOfTen e.toNat
    if y.isInf then none else some y
  else if -308 ≤ e then
    some (x / powerOfTen (-e).toNat)
  else if x == 0 then some x
  else shiftDecimal (x / powerOfTen 308) (e + 308)
termination_by (-e).toNat
decreasing_by omega

/-- Appends digits to the number `n` for as long as it stays below `limit`: the number, how many
digits it took, and the text behind them. -/
def gatherDigits (limit n : Nat) : List Char → Nat × Nat × List Char
  | [] => (n, 0, [])
  | a :: rest =>
      let m := n * 10 + (a.toNat - '0'.toNat)
      if a.isDigit ∧ m < limit then
        let (n', count, rest') := gatherDigits limit m rest
        (n', count + 1, rest')
      else (n, 0, a :: rest)

theorem length_gatherDigits_le (limit n : Nat) (s : List Char) :
    (gatherDigits limit n s).2.2.length ≤ s.length := by
  fun_induction gatherDigits limit n s with
  | case1 => exact Nat.le_refl _
  | case2 n a rest m h n' count rest' heq ih =>
      rw [heq] at ih
      exact Nat.le_succ_of_le ih
  | case3 => exact Nat.le_refl _

/-- The significands of a numeral lie below this number. -/
def significandLimit : Nat := Nat.pow 2 64

/-- The exponents of a numeral lie below this number. -/
def exponentLimit : Nat := Nat.pow 2 31

namespace Reader

/-- Reads digits into the number `n` for as long as it stays below `limit`, and counts them. -/
def digitsBelow (limit n : Nat) : Reader (Nat × Nat) where
  run c :=
    let (n', count, rest) := gatherDigits limit n c.rest
    .ok ((n', count), ⟨c.offset + count, rest⟩)
  length_le := by
    intro c a c' h
    cases h
    exact length_gatherDigits_le limit n c.rest

/-- Steps over digits and counts them. -/
def skipDigits : Reader Nat where
  run c :=
    let count := (c.rest.takeWhile Char.isDigit).length
    .ok (count, ⟨c.offset + count, c.rest.dropWhile Char.isDigit⟩)
  length_le := by
    intro c a c' h
    cases h
    exact (List.dropWhile_sublist _).length_le

/-- Reads the whole part of a numeral: its significand, and how many further digits it has. -/
def wholePart : Reader (Nat × Nat) := do
  match ← peek with
  | none => fail .endOfValue
  | some '0' =>
      skip
      match ← peek with
      | some a => if a.isDigit then failNext .brokenNumber else return (0, 0)
      | none => return (0, 0)
  | some a =>
      if a.isDigit then
        let (n, _) ← digitsBelow significandLimit 0
        return (n, ← skipDigits)
      else failNext .brokenNumber

/-- Reads the fraction of a numeral, if it has one: the significand with its digits, and how many
digits went into it. -/
def fraction? (n : Nat) : Reader (Option (Nat × Nat)) := do
  match ← peek with
  | some '.' =>
      skip
      let (m, gathered) ← digitsBelow significandLimit n
      let dropped ← skipDigits
      if gathered + dropped = 0 then
        match ← peek with
        | none => fail .endOfValue
        | some _ => failNext .brokenNumber
      else return some (m, gathered)
  | _ => return none

/-- The exponent of a numeral. -/
inductive Exponent where
  | finite (e : Int)
  /-- An exponent so far below zero that every numeral with it is zero. -/
  | vanishing
deriving DecidableEq

/-- Reads the digits of an exponent. One that is too long makes the numeral too large, unless the
exponent is negative or the significand zero. -/
def exponentDigits (negative : Bool) (significand : Nat) : Reader Exponent := do
  let (e, count) ← digitsBelow exponentLimit 0
  if count = 0 then
    match ← peek with
    | none => fail .endOfValue
    | some _ => failNext .brokenNumber
  else
    match ← peek with
    | some a =>
        if a.isDigit then
          if significand ≠ 0 ∧ !negative then failNext .hugeNumber
          else
            let _ ← skipDigits
            return .vanishing
        else return .finite (if negative then -e else e)
    | none => return .finite (if negative then -e else e)

/-- Reads the exponent of a numeral, if it has one. -/
def exponent? (significand : Nat) : Reader (Option Exponent) := do
  match ← peek with
  | some 'e' | some 'E' =>
      skip
      match ← peek with
      | some '+' =>
          skip
          return some (← exponentDigits false significand)
      | some '-' =>
          skip
          return some (← exponentDigits true significand)
      | _ => return some (← exponentDigits false significand)
  | _ => return none

/-- The float with this sign, significand and exponent. -/
def real (negative : Bool) (significand : Nat) (e : Exponent) : Reader Number := do
  let magnitude ←
    match e with
    | .vanishing => pure 0.0
    | .finite e =>
        match shiftDecimal (Float.ofScientific significand false 0) e with
        | some x => pure x
        | none => fail .hugeNumber
  return .real (if negative then -magnitude else magnitude)

/-- Reads a numeral. -/
def number : Reader Number := do
  let negative := (← peek) == some '-'
  if negative then skip
  let (n, dropped) ← wholePart
  let fraction ← fraction? n
  let (m, gathered) := fraction.getD (n, 0)
  let exponent ← exponent? m
  match fraction, exponent with
  | none, none =>
      if dropped = 0 ∧ (!negative ∨ 0 < n ∧ n ≤ Nat.pow 2 63) then
        return .whole (if negative then -n else n)
      else real negative n (.finite dropped)
  | _, some .vanishing => real negative m .vanishing
  | _, some (.finite e) => real negative m (.finite (dropped - gathered + e))
  | _, none => real negative m (.finite (dropped - gathered))

/-! ## Values of a wanted kind

A value of the wrong kind is reported as soon as it has been read, and a list
or an object even before that, as soon as it has begun. So a fault inside a
scalar comes before the complaint about its kind, and a fault inside a list or
an object that is not wanted is never seen. -/

variable {α : Type}

/-- Reads a scalar, or notes that a list or an object begins. -/
def found : Reader Found := do
  match ← peek with
  | some 'n' => do word ['n', 'u', 'l', 'l']; return .null
  | some 't' => do word ['t', 'r', 'u', 'e']; return .boolean true
  | some 'f' => do word ['f', 'a', 'l', 's', 'e']; return .boolean false
  | some '"' => return .string (← stringLiteral)
  | some '[' => return .list
  | some '\x7b' => return .object
  | some a => if a = '-' ∨ a.isDigit then return .number (← number) else failNext .valueDue
  | none => fail .endOfValue

/-- Reports the next value as one of the wrong kind. -/
def wrongType (wanted : Wanted) : Reader α := do
  fail (.wrongType (← found) wanted)

/-- Reads a string. -/
def string : Reader String := do
  skipBlanks
  match ← peek with
  | none => fail .endOfValue
  | some '"' => stringLiteral
  | some _ => wrongType .string

/-- Reads a truth value. -/
def boolean : Reader Bool := do
  skipBlanks
  match ← peek with
  | none => fail .endOfValue
  | some 't' => do word ['t', 'r', 'u', 'e']; return true
  | some 'f' => do word ['f', 'a', 'l', 's', 'e']; return false
  | some _ => wrongType .boolean

end Reader

end Rebind.Json
