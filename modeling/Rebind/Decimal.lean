/-!
# Decimals

A number that is not whole is reported by its shortest decimal: the one with the
fewest digits that reads back as the number.
-/

namespace Rebind.Decimal

/-! ## The shortest decimal of a binary value

A binary64 value stands for all the reals that round to it, an interval around
the value itself. The shortest decimal of the value is the multiple of the
coarsest power of ten that lies in this interval; of two multiples the nearer
is taken, and of two equally near the even one. A coarser grid is one digit
less, so the grids are tried from the coarsest on, and on each only the two
multiples next to the value need a look.

All comparisons are between naturals, after both sides have been multiplied up
to whole numbers, so nothing here rounds. -/

/-- The magnitude of a finite binary64 value, as `mantissa * 2 ^ exponent`. -/
structure Binary where
  mantissa : Nat
  exponent : Int
  /-- The value below is half as far away as the value above. -/
  closerBelow : Bool
deriving DecidableEq, Repr

/-- A decimal number, `coefficient * 10 ^ exponent`. -/
structure Scientific where
  coefficient : Nat
  exponent : Int
deriving DecidableEq, Repr

/-- The magnitude that the bits of a finite value stand for. -/
def Binary.ofBits (bits : UInt64) : Binary :=
  let biased := ((bits >>> 52) &&& 0x7FF).toNat
  let fraction := (bits &&& 0xFFFFFFFFFFFFF).toNat
  if biased = 0 then ⟨fraction, -1074, false⟩
  else ⟨Nat.pow 2 52 + fraction, biased - 1075, fraction = 0 ∧ 1 < biased⟩

/-- Compares the decimal with `b * 2 ^ q`, exactly. -/
def Scientific.compareBinary (d : Scientific) (b : Nat) (q : Int) : Ordering :=
  compare (d.coefficient * Nat.pow 10 d.exponent.toNat * Nat.pow 2 (-q).toNat)
    (b * Nat.pow 2 q.toNat * Nat.pow 10 (-d.exponent).toNat)

namespace Binary

/-- Whether the decimal is among the reals that round to the value: it lies between the midpoints
to the two neighbouring values, and may be one of the midpoints when the mantissa is even. -/
def readsBack (x : Binary) (d : Scientific) : Bool :=
  let even := x.mantissa % 2 == 0
  let low := d.compareBinary (if x.closerBelow then 4 * x.mantissa - 1 else 4 * x.mantissa - 2)
    (x.exponent - 2)
  let high := d.compareBinary (4 * x.mantissa + 2) (x.exponent - 2)
  (low == .gt || even && low == .eq) && (high == .lt || even && high == .eq)

/-- How many whole times `10 ^ e` goes into the value. -/
def floorAt (x : Binary) (e : Int) : Nat :=
  x.mantissa * Nat.pow 2 x.exponent.toNat * Nat.pow 10 (-e).toNat /
    (Nat.pow 10 e.toNat * Nat.pow 2 (-x.exponent).toNat)

/-- The multiple of `10 ^ e` that reads back as the value, if there is one: the nearer of the two
that enclose the value, and the even one if both are equally near. -/
def onGrid (x : Binary) (e : Int) : Option Scientific :=
  let below := x.floorAt e
  match x.readsBack ⟨below, e⟩, x.readsBack ⟨below + 1, e⟩ with
  | false, false => none
  | true, false => some ⟨below, e⟩
  | false, true => some ⟨below + 1, e⟩
  | true, true =>
      match Scientific.compareBinary ⟨2 * below + 1, e⟩ (2 * x.mantissa) x.exponent with
      | .gt => some ⟨below, e⟩
      | .lt => some ⟨below + 1, e⟩
      | .eq => some ⟨below + below % 2, e⟩

/-- The shortest decimal that reads back as the value. Every value other than zero is a multiple of
`10 ^ (-1074)`, so some grid has one. -/
def shortest (x : Binary) : Scientific :=
  ((List.range 1384).findSome? fun (i : Nat) => x.onGrid (309 - i)).getD ⟨0, 0⟩

end Binary

/-! ## How a number is written in a message

A decimal is written out in full, with at least one digit on either side of the
point, as long as it is at least `0.00001` and below `10 ^ 16`, and with an
exponent otherwise; the exponent has no plus sign, and a single digit before it
has no point. -/

/-- The layout of a decimal number. -/
def Scientific.layout (d : Scientific) : List Char :=
  let ds := Nat.toDigits 10 d.coefficient
  -- where the point falls, counted from the left of the digits
  let point := ds.length + d.exponent
  if point ≤ -5 ∨ 16 < point then
    match ds with
    | [] => []
    | [c] => c :: 'e' :: (toString (point - 1)).toList
    | c :: cs => c :: '.' :: cs ++ 'e' :: (toString (point - 1)).toList
  else if point ≤ 0 then
    '0' :: '.' :: List.replicate (-point).toNat '0' ++ ds
  else if d.exponent < 0 then
    ds.take point.toNat ++ '.' :: ds.drop point.toNat
  else
    ds ++ List.replicate d.exponent.toNat '0' ++ ['.', '0']

/-- The text of a finite number: the shortest decimal that reads back, with a sign if it has one.
Zero keeps its sign. -/
def text (x : Float) : String :=
  let sign := if x.toBits >>> 63 = 1 then ['-'] else []
  let magnitude := Binary.ofBits x.toBits
  let body := if magnitude.mantissa = 0 then ['0', '.', '0'] else magnitude.shortest.layout
  String.ofList (sign ++ body)

example : text 0.00001 = "0.00001" ∧ text 1e-6 = "1e-6" ∧ text (-0.0) = "-0.0" := by
  decide +kernel

example : text 1e15 = "1000000000000000.0" ∧ text 1.5e16 = "1.5e16" := by decide +kernel

end Rebind.Decimal
